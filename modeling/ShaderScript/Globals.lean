import ShaderScript.FileTree
import ShaderScript.Number.Layout
import ShaderScript.Toml.Document
import ShaderScript.Value.Basic

/-!
# Globals from a file

The values of globals for a run come from a TOML file, from its table `globals` or from the file as
a whole.  A list of two to four numbers, or booleans, is a vector; `n` lists of `n` numbers are the
columns of a matrix; other lists of lists are arrays, where a list of one is that one.
-/

namespace ShaderScript

/-- Why a TOML value is no shader value. -/
inductive GlobalFault
  | tableValue
  | unsupported (kind : String)
  | emptyList
  | mixedComponents
  | unsupportedComponent (kind : String)
  | vectorSize (size : Nat)
  | mixedNesting
  deriving Repr, DecidableEq

/-- The text for a TOML value that is no shader value. -/
def GlobalFault.message : GlobalFault → String
  | tableValue => "tables are not shader values"
  | unsupported kind => "unsupported value " ++ kind
  | emptyList => "empty array"
  | mixedComponents => "mixed vector components"
  | unsupportedComponent kind => "unsupported vector component " ++ kind
  | vectorSize size => "vectors have 2 to 4 components, got " ++ natText size
  | mixedNesting => "mixed nesting"

/-- Why there are no globals. -/
inductive GlobalsError
  /-- The file is not there or is not TOML. -/
  | unreadable (path : String)
  | invalid (path name : String) (fault : GlobalFault)
  deriving Repr, DecidableEq

/-- The text for globals that cannot be had. -/
def GlobalsError.message : GlobalsError → String
  | unreadable path => path ++ ": failed to parse TOML"
  | invalid path name fault => path ++ ": " ++ name ++ ": " ++ fault.message

namespace Globals

/-- The kind and the number of a scalar. -/
def scalar? : Toml.Value → Option (ComponentKind × Float)
  | .bool b => some (.bool, if b then 1 else 0)
  | .integer i => some (.float, Float.ofInt i)
  | .float x => some (.float, x)
  | _ => none

/-- A component of a vector of some kind. -/
def component (kind : ComponentKind) (v : Toml.Value) : Except GlobalFault Float :=
  match scalar? v with
  | none => .error (.unsupportedComponent v.kindName)
  | some (k, x) => if k = kind then .ok x else .error .mixedComponents

/-- The kind of a vector, which its first component decides on. -/
def vectorKind (items : List Toml.Value) : ComponentKind :=
  match items.head?.bind scalar? with
  | some (kind, _) => kind
  | none => .float

def vector (items : List Toml.Value) : Except GlobalFault ShaderScript.Value := do
  let xs ← items.mapM (component (vectorKind items))
  if 2 ≤ xs.length ∧ xs.length ≤ 4 then return .vector (.of (vectorKind items) xs)
  else throw (.vectorSize xs.length)

/-- The components of a value that is a vector of floats. -/
def floatComponents? : ShaderScript.Value → Option (List Float)
  | .vector v => if v.kind = .float then some v.components else none
  | _ => none

/-- Rows as one value: the columns of a matrix if they can be, else an array. -/
def ofRows (square : Bool) (rows : List ShaderScript.Value) : ShaderScript.Value :=
  match square, rows.mapM floatComponents? with
  | true, some columns => .matrix (.of rows.length columns.flatten)
  | _, _ => .array rows

/-- Whether as many rows as there are, two to four, have as many items. -/
def isSquare (items : List Toml.Value) : Bool :=
  2 ≤ items.length && items.length ≤ 4 && items.all fun
    | .list row => row.length == items.length
    | _ => false

mutual

def convert : Toml.Value → Except GlobalFault ShaderScript.Value
  | .bool b => .ok (.bool b)
  | .integer i => .ok (.number (Float.ofInt i))
  | .float x => .ok (.number x)
  | .list items => convertList items
  | .table _ => .error .tableValue
  | .tables _ => .error .tableValue
  | v => .error (.unsupported v.kindName)

/-- A list: a vector, or rows. -/
def convertList : List Toml.Value → Except GlobalFault ShaderScript.Value
  | [] => .error .emptyList
  | .list row :: rest => do
    let first ← convertRow row
    let others ← convertRows rest
    return ofRows (isSquare (.list row :: rest)) (first :: others)
  | items => vector items

/-- A row: a list of one is that one. -/
def convertRow : List Toml.Value → Except GlobalFault ShaderScript.Value
  | [v] => convert v
  | row => convertList row

/-- Rows in order; each has to be a list. -/
def convertRows : List Toml.Value → Except GlobalFault (List ShaderScript.Value)
  | [] => .ok []
  | .list row :: rest => do
    let first ← convertRow row
    let others ← convertRows rest
    return first :: others
  | _ :: _ => .error .mixedNesting

end

/-- The entries of a table in the order of their names. -/
def sortedEntries (t : Toml.Table) : Toml.Table := t.mergeSort fun a b => decide (a.1 ≤ b.1)

def convertEntry (path : String) (entry : String × Toml.Value) :
    Except GlobalsError (String × ShaderScript.Value) :=
  match convert entry.2 with
  | .ok v => .ok (entry.1, v)
  | .error fault => .error (.invalid path entry.1 fault)

/-- The table of a document that holds the globals. -/
def tableOf (document : Toml.Document) : Toml.Table :=
  match document.root.lookup "globals" with
  | some (.table inner) => inner
  | _ => document.root

/-- The globals of a file, given how TOML is read. -/
def loadBy (read? : List UInt8 → Option Toml.Document) (t : FileTree) (path : String) :
    Except GlobalsError (List (String × ShaderScript.Value)) :=
  match t.read path with
  | .error _ => .error (.unreadable path)
  | .ok bytes =>
    match read? bytes with
    | none => .error (.unreadable path)
    | some document => (sortedEntries (tableOf document)).mapM (convertEntry path)

def load : FileTree → String → Except GlobalsError (List (String × ShaderScript.Value)) :=
  loadBy Toml.read?

end Globals

end ShaderScript
