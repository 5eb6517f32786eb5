import ShaderScript.Syntax.Shader
import ShaderScript.Text.Case
import ShaderScript.Document.Json
import ShaderScript.Document.MessagePack
import ShaderScript.Text.FilePath
import ShaderScript.Text.Normal

/-!
# Shader descriptors

A descriptor is a document that describes a shader.  `Descriptor.ofDocument` reads one and says
where it is wrong: a `DecodeError` has the path of the offending element and a cause.

Names are brought to a normal form (`NormalForm`), so that a name compares equal however its accents
are spelled.
-/

namespace ShaderScript

/-- One step of a path into a document. -/
inductive Segment
  | key (name : String)
  | index (i : Nat)
  deriving Repr, DecidableEq

def Segment.text : Segment → String
  | .key name => "." ++ name
  | .index i => "[" ++ natText i ++ "]"

/-- A path from the root of a document. -/
abbrev Path := List Segment

/-- The text of a path; the root is a dollar sign. -/
def Path.text (path : Path) : String := "$" ++ String.join (path.map Segment.text)

/-- Why an element of a descriptor cannot be decoded. -/
inductive DecodeCause
  | notDescriptor (kind : String)
  | missingTree
  | notArray (kind : String)
  | notVariable (kind : String)
  | unnamedVariable
  | notNode (kind : String)
  | unknownTag (name : String)
  /-- The value of a key is of the wrong kind. -/
  | wrongKind (key expected kind : String)
  | missingKey (key : String)
  | missingOperator (key : String)
  | notOperator (tag : String)
  | numeral (text : String) (error : NumeralError)
  | fractionalInteger (value : Float)
  | wideInteger (value : Float)

def DecodeCause.message : DecodeCause → String
  | .notDescriptor kind => "descriptor must be an object, got " ++ kind
  | .missingTree => "missing syntax tree"
  | .notArray kind => "expected array, got " ++ kind
  | .notVariable kind => "expected object or string, got " ++ kind
  | .unnamedVariable => "variable without a name"
  | .notNode kind => "expected node object, got " ++ kind
  | .unknownTag name => "unknown node type " ++ Text.quoted name
  | .wrongKind key expected kind => "." ++ key ++ ": expected " ++ expected ++ ", got " ++ kind
  | .missingKey key => "." ++ key ++ ": missing"
  | .missingOperator key => "." ++ key ++ ": missing operator"
  | .notOperator tag => "operator must be a token or selector, got " ++ tag
  | .numeral text error =>
    "strconv.ParseFloat: parsing " ++ Text.quoted text ++ ": " ++
      match error with
      | .malformed => "invalid syntax"
      | .outOfRange => "value out of range"
  | .fractionalInteger value =>
    ".value: integer literal " ++ floatText value ++ " has a fractional part"
  | .wideInteger value =>
    ".value: integer literal " ++ floatText value ++ " does not fit in 64 bits"

/-- A descriptor that cannot be decoded: where and why. -/
structure DecodeError where
  path : Path
  cause : DecodeCause

def DecodeError.message (e : DecodeError) : String :=
  "ast: " ++ e.path.text ++ ": " ++ e.cause.message

namespace Descriptor

/-- An entry of a table, with what it decodes to as a node and as a list of nodes. -/
structure Field where
  raw : Document
  node : Path → Except DecodeError Node
  nodes : Path → Except DecodeError (List Node)

/-- The entries of a table that may be a node. -/
abbrev Fields := List (String × Field)

/-- The document at a key; an entry that is null counts as missing. -/
def present (fields : Fields) (key : String) : Option Field :=
  match Document.lookup key fields with
  | some field =>
    match field.raw with
    | .null => none
    | _ => some field
  | none => none

def text (fields : Fields) (path : Path) (key : String) : Except DecodeError String :=
  match present fields key with
  | none => .ok ""
  | some field =>
    match field.raw with
    | .text s => .ok s
    | other => .error ⟨path, .wrongKind key "string" other.kindName⟩

/-- A name, in its normal form. -/
def name [NormalForm] (fields : Fields) (path : Path) (key : String) : Except DecodeError String :=
  (text fields path key).map NormalForm.normal

def textItems (path : Path) (key : String) : List Document → Except DecodeError (List String)
  | [] => .ok []
  | .text s :: rest => (textItems path key rest).map (s :: ·)
  | other :: _ => .error ⟨path, .wrongKind key "string element" other.kindName⟩

/-- A list of texts; empty if missing. -/
def texts (fields : Fields) (path : Path) (key : String) : Except DecodeError (List String) :=
  match present fields key with
  | none => .ok []
  | some field =>
    match field.raw with
    | .list items => textItems path key items
    | other => .error ⟨path, .wrongKind key "array" other.kindName⟩

/-- A truth value; false if missing. -/
def boolean (fields : Fields) (path : Path) (key : String) : Except DecodeError Bool :=
  match present fields key with
  | none => .ok false
  | some field =>
    match field.raw with
    | .bool b => .ok b
    | other => .error ⟨path, .wrongKind key "bool" other.kindName⟩

/-- The double a document denotes: a number of any form, or its text. -/
def numberOf (path : Path) (key : String) : Document → Except DecodeError Float
  | .number (.decimal digits) =>
    (Numeral.read digits).mapError fun e => ⟨path, .numeral digits e⟩
  | .number q => q.toFloat.mapError fun e => ⟨path, .numeral "" e⟩
  | .text s => (Numeral.read s).mapError fun e => ⟨path, .numeral s e⟩
  | other => .error ⟨path, .wrongKind key "number" other.kindName⟩

/-- The number at a key, which must be there. -/
def number (fields : Fields) (path : Path) (key : String) : Except DecodeError Float :=
  match Document.lookup key fields with
  | none => .error ⟨path, .missingKey key⟩
  | some field => numberOf path key field.raw

/-- The number at a key of a plain table. -/
def plainNumber (entries : List (String × Document)) (path : Path) (key : String) :
    Except DecodeError Float :=
  match Document.lookup key entries with
  | none => .error ⟨path, .missingKey key⟩
  | some d => numberOf path key d

/-- A coordinate cut to an integer; the least one stands for those out of range. -/
def coordinate (x : Float) : Int := (truncateToInt64? x).getD leastInt64

/-- The position at the key `loc`; the column may be left out. -/
def position (fields : Fields) (path : Path) : Except DecodeError Position :=
  match present fields "loc" with
  | none => .ok .unknown
  | some field =>
    match field.raw with
    | .table entries => do
      let line ← plainNumber entries path "line"
      let col ← match Document.lookup "col" entries with
        | none => pure 0
        | some d => numberOf path "col" d
      return ⟨coordinate line, coordinate col⟩
    | other => .error ⟨path, .wrongKind "loc" "object" other.kindName⟩

/-- The node at a key; `Node.absent` if missing. -/
def child (fields : Fields) (path : Path) (key : String) : Except DecodeError Node :=
  match present fields key with
  | none => .ok .absent
  | some field => field.node (path ++ [.key key])

/-- The list of nodes at a key; empty if missing. -/
def children (fields : Fields) (path : Path) (key : String) : Except DecodeError (List Node) :=
  match present fields key with
  | none => .ok []
  | some field => field.nodes (path ++ [.key key])

/-- The operator at a key: a token, an operator node, or a selector. -/
def operator (fields : Fields) (path : Path) (key : String) : Except DecodeError Operator :=
  match present fields key with
  | none => .error ⟨path, .missingOperator key⟩
  | some field =>
    match field.raw with
    | .text token => .ok (.token .unknown token)
    | _ =>
      match field.node (path ++ [.key key]) with
      | .error e => .error e
      | .ok (.operator op) => .ok op
      | .ok (.indexSelector pos index) => .ok (.selector pos (.indexSelector pos index))
      | .ok (.fieldSelector pos selection) => .ok (.selector pos (.fieldSelector pos selection))
      | .ok other => .error ⟨path ++ [.key key], .notOperator other.tagName⟩

/-- The operator of an operator node: a token or any node as selector. -/
def ownOperator (fields : Fields) (path : Path) (pos : Position) : Except DecodeError Node :=
  match present fields "operator" with
  | none => .error ⟨path, .missingKey "operator"⟩
  | some field =>
    match field.raw with
    | .text token => .ok (.operator (.token pos token))
    | _ => do
      let selector ← field.node (path ++ [.key "operator"])
      return .operator (.selector pos selector)

/-- The name of a declared variable: a text or any node. -/
def declaredName [NormalForm] (fields : Fields) (path : Path) (pos : Position) :
    Except DecodeError Node :=
  match present fields "name" with
  | none => .ok .absent
  | some field =>
    match field.raw with
    | .text s => .ok (.identifier pos (NormalForm.normal s))
    | _ => field.node (path ++ [.key "name"])

/-- An integer literal: a whole number of 64 bits. -/
def integerLiteral (fields : Fields) (path : Path) (pos : Position) : Except DecodeError Node := do
  let x ← number fields path "value"
  if x != truncate x then
    throw ⟨path, .fractionalInteger x⟩
  match truncateToInt64? x with
  | some i => return .integerLiteral pos i
  | none => throw ⟨path, .wideInteger x⟩

/-- The node of a tag, from the entries of its table. -/
def build [NormalForm] (fields : Fields) (path : Path) (pos : Position) :
    Tag → Except DecodeError Node
  | .program => return .program pos (← children fields path "statements")
  | .scope => return .scope pos (← children fields path "statements")
  | .preprocessor => do
    let directive ← text fields path "directive"
    let identifier ← text fields path "identifier"
    let parameters ← texts fields path "parameters"
    let value ← text fields path "value"
    let guarded ← children fields path "guarded_statements"
    return .preprocessor pos directive identifier parameters value guarded
  | .macroCall => do
    let called ← text fields path "macro_name"
    let parameters ← texts fields path "parameters"
    return .macroCall pos called parameters
  | .functionCall => do
    let called ← name fields path "function_name"
    let arguments ← children fields path "parameters"
    return .functionCall pos called arguments
  | .functionPrototype => do
    let declared ← name fields path "name"
    let returnType ← child fields path "returnType"
    let parameters ← children fields path "parameters"
    return .functionPrototype pos declared returnType parameters
  | .functionDeclaration => do
    let declared ← name fields path "name"
    let returnType ← child fields path "returnType"
    let parameters ← children fields path "parameters"
    let body ← child fields path "body"
    return .functionDeclaration pos declared returnType parameters body
  | .ifStatement => do
    let condition ← child fields path "condition"
    let body ← child fields path "body"
    let otherwise ← child fields path "elseBody"
    return .ifStatement pos condition body otherwise
  | .forStatement => do
    let initializer ← child fields path "initializer"
    let condition ← child fields path "condition"
    let increment ← child fields path "increment"
    let body ← child fields path "body"
    return .forStatement pos initializer condition increment body
  | .whileStatement => do
    let condition ← child fields path "condition"
    let body ← child fields path "body"
    return .whileStatement pos condition body
  | .doStatement => do
    let condition ← child fields path "condition"
    let body ← child fields path "body"
    return .doStatement pos condition body
  | .returnStatement => return .returnStatement pos (← child fields path "value")
  | .continueStatement => return .continueStatement pos
  | .breakStatement => return .breakStatement pos
  | .discardStatement => return .discardStatement pos
  | .expressionStatement => return .expressionStatement pos (← child fields path "expression")
  | .declarator => do
    let type ← child fields path "typeAttribute"
    let items ← children fields path "declarators"
    return .declarator pos type items
  | .declaratorItem => do
    let declared ← declaredName fields path pos
    let initializer ← child fields path "initializer"
    return .declaratorItem pos declared initializer
  | .invariant => return .invariant pos (← children fields path "identifiers")
  | .precision => do
    let precision ← text fields path "precision"
    let typeName ← text fields path "typeName"
    return .precision pos precision typeName
  | .parameter => do
    let declared ← name fields path "name"
    let typeName ← text fields path "type_name"
    let typeQualifier ← text fields path "typeQualifier"
    let parameterQualifier ← text fields path "parameterQualifier"
    let precision ← text fields path "precision"
    let arraySize ← child fields path "arraySize"
    return .parameter pos typeName declared typeQualifier parameterQualifier precision arraySize
  | .structDefinition => do
    let qualifier ← text fields path "qualifier"
    let declared ← text fields path "name"
    let members ← children fields path "members"
    let declarators ← children fields path "declarators"
    return .structDefinition pos qualifier declared members declarators
  | .type => do
    let declared ← text fields path "name"
    let precision ← text fields path "precision"
    let qualifier ← text fields path "qualifier"
    return .type pos declared precision qualifier
  | .integerLiteral => integerLiteral fields path pos
  | .floatLiteral => return .floatLiteral pos (← number fields path "value")
  | .booleanLiteral => return .booleanLiteral pos (← boolean fields path "value")
  | .identifier => return .identifier pos (← name fields path "name")
  | .operator => ownOperator fields path pos
  | .postfixExpression => do
    let op ← operator fields path "operator"
    let expression ← child fields path "expression"
    return .postfixExpression pos op expression
  | .unaryExpression => do
    let op ← operator fields path "operator"
    let expression ← child fields path "expression"
    return .unaryExpression pos op expression
  | .binaryExpression => do
    let op ← operator fields path "operator"
    let left ← child fields path "left"
    let right ← child fields path "right"
    return .binaryExpression pos op left right
  | .ternaryExpression => do
    let condition ← child fields path "condition"
    let whenTrue ← child fields path "is_true"
    let whenFalse ← child fields path "is_false"
    return .ternaryExpression pos condition whenTrue whenFalse
  | .indexSelector => return .indexSelector pos (← child fields path "index")
  | .fieldSelector => return .fieldSelector pos (← text fields path "selection")

/-- The node of a table: its tag, its position, then the entries that the tag needs. -/
def nodeOfFields [NormalForm] (fields : Fields) (path : Path) : Except DecodeError Node := do
  let tagName ← text fields path "type"
  match Tag.ofName? tagName with
  | none => throw ⟨path, .unknownTag tagName⟩
  | some tag =>
    let pos ← position fields path
    build fields path pos tag

mutual

def node [NormalForm] : Document → Path → Except DecodeError Node
  | .table entries, path => nodeOfFields (fields entries) path
  | other, path => .error ⟨path, .notNode other.kindName⟩

def nodes [NormalForm] : Document → Path → Except DecodeError (List Node)
  | .list items, path => nodeItems items path 0
  | other, path => .error ⟨path, .notArray other.kindName⟩

/-- The nodes of list elements, counted from `i`. -/
def nodeItems [NormalForm] : List Document → Path → Nat → Except DecodeError (List Node)
  | [], _, _ => .ok []
  | d :: rest, path, i =>
    match node d (path ++ [.index i]) with
    | .error e => .error e
    | .ok n => (nodeItems rest path (i + 1)).map (n :: ·)

/-- The entries of a table, each with what it decodes to. -/
def fields [NormalForm] : List (String × Document) → Fields
  | [] => []
  | (k, d) :: rest => (k, ⟨d, node d, nodes d⟩) :: fields rest

end

/-! ## Variable lists -/

/-- The text at a key of a plain table; empty if missing. -/
def plainText (entries : List (String × Document)) (path : Path) (key : String) :
    Except DecodeError String :=
  match Document.lookup key entries with
  | none => .ok ""
  | some .null => .ok ""
  | some (.text s) => .ok s
  | some other => .error ⟨path, .wrongKind key "string" other.kindName⟩

/-- One entry of the variable list at `path`: a name, or a table with a name and a type. -/
def variableOf [NormalForm] (path : Path) (i : Nat) : Document → Except DecodeError Variable
  | .text s => .ok ⟨NormalForm.normal s, ""⟩
  | .table entries => do
    let element := path ++ [.index i]
    let declared ← plainText entries element "name"
    if declared = "" then
      throw ⟨path, .unnamedVariable⟩
    let type ← plainText entries element "type"
    return ⟨NormalForm.normal declared, type⟩
  | other => .error ⟨path, .notVariable other.kindName⟩

/-- The variables of list elements, counted from `i`. -/
def variableItems [NormalForm] (path : Path) :
    Nat → List Document → Except DecodeError (List Variable)
  | _, [] => .ok []
  | i, d :: rest =>
    match variableOf path i d with
    | .error e => .error e
    | .ok v => (variableItems path (i + 1) rest).map (v :: ·)

/-- The variable list at a key of the descriptor; empty if missing. -/
def variableList [NormalForm] (fields : Fields) (key : String) :
    Except DecodeError (List Variable) :=
  match present fields key with
  | none => .ok []
  | some field =>
    match field.raw with
    | .list items => variableItems [.key key] 0 items
    | other => .error ⟨[.key key], .notArray other.kindName⟩

def ofDocument [NormalForm] : Document → Except DecodeError Shader
  | .table entries => do
    let fs := fields entries
    let tree ← child fs [] "ast"
    if tree.isAbsent then
      throw ⟨[.key "ast"], .missingTree⟩
    let uniforms ← variableList fs "uniforms"
    let varyings ← variableList fs "varyings"
    let attributes ← variableList fs "attributes"
    let trap ← boolean fs [] "debugTrap"
    let alsoTrap ← boolean fs [] "shouldEmitDebuggerStatement"
    return { tree, uniforms, varyings, attributes, debugTrap := trap || alsoTrap }
  | other => .error ⟨[], .notDescriptor other.kindName⟩

/-! ## Descriptor files -/

/-- Why a descriptor file holds no shader. -/
inductive FileError
  | notJson
  | notMessagePack
  | decode (error : DecodeError)

/-- The shader that is described in a format, given how the format is read. -/
def ofFormat [NormalForm] {α : Type} (read : α → Option Document) (failure : FileError) (input : α) :
    Except FileError Shader :=
  match read input with
  | none => .error failure
  | some d => (ofDocument d).mapError .decode

def ofJson [NormalForm] : List Char → Except FileError Shader := ofFormat Json.read .notJson

def ofMessagePack [NormalForm] : List UInt8 → Except FileError Shader :=
  ofFormat MessagePack.read .notMessagePack

/-- Reads a descriptor file.  The extension of its name chooses the format; JSON is the default. -/
def ofFile [NormalForm] (fileName : String) (bytes : List UInt8) : Except FileError Shader :=
  let extension := Text.lowerCase (FilePath.extension fileName)
  if extension = ".msgpack" ∨ extension = ".mp" then ofMessagePack bytes
  else ofJson (Text.decodeLossy bytes)

end Descriptor

end ShaderScript
