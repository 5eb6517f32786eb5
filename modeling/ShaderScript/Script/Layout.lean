import ShaderScript.Number.Layout
import ShaderScript.Script.Basic

/-!
# The text of a script

A script is written line by line, each line at a depth.  `Stmt.lines` lays a statement out: its
first line, the lines of its bodies one level deeper, and what closes it.  `Script.lines` gives the
lines of a script, and `Script.source` the text.
-/

namespace ShaderScript

/-- The name under which a script reaches the catalog. -/
def catalogName : String := "RT"

/-- The local spelling of a name. -/
def localName (name : String) : String := "V_" ++ name

/-! ## Operators without meaning -/

/-- A token without the characters that could end the comment or the text it stands in. -/
def cleanChars : List Char → List Char
  | [] => []
  | '*' :: '/' :: rest => cleanChars rest
  | c :: rest =>
    if c = '\'' ∨ c = '\\' then cleanChars rest
    else (if c = '\n' then ' ' else c) :: cleanChars rest

/-- A character that does not start the end of a comment is taken out, or it stays. -/
theorem cleanChars_cons {c : Char} {rest : List Char}
    (h : ∀ r, c = '*' → rest = '/' :: r → False) :
    cleanChars (c :: rest) =
      if c = '\'' ∨ c = '\\' then cleanChars rest
      else (if c = '\n' then ' ' else c) :: cleanChars rest := by
  rw [cleanChars]
  exact h

/-- The form of a token inside a comment or a text. -/
def cleanToken (token : String) : String := String.ofList (cleanChars token.toList)

/-! ## Expressions -/

namespace Slot

/-- The code that reads a variable. -/
def text : Slot → String
  | binding name => localName name
  | global name => "env.get('" ++ name ++ "')"

/-- The code that stores a value. -/
def assignment (value : String) : Slot → String
  | binding name => localName name ++ " = " ++ value
  | global name => "env.set('" ++ name ++ "', " ++ value ++ ")"

end Slot

/-- A float literal keeps a point, or another mark that tells it from an integer. -/
def floatLiteral (x : Float) : String :=
  let text := floatText x
  if text.toList.any fun c => c = '.' ∨ c = 'e' ∨ c = 'I' ∨ c = 'N' then text else text ++ ".0"

namespace Expr

mutual

/-- The code of an expression. -/
def text (d : Dialect) : Expr → String
  | blank => ""
  | read slot => slot.text
  | integer i => intText i
  | float x => floatLiteral x
  | index x => floatText x
  | bool b => d.boolText b
  | field selection => "'" ++ selection ++ "'"
  | bare token => token
  | invoke member args =>
    catalogName ++ "." ++ d.member member ++ "(" ++ ", ".intercalate (texts d args) ++ ")"
  | call callee args => callee.text ++ "(" ++ ", ".intercalate (texts d args) ++ ")"
  | choose condition whenTrue whenFalse =>
    match d with
    | .javaScript =>
      "(" ++ text d condition ++ " ? " ++ text d whenTrue ++ " : " ++ text d whenFalse ++ ")"
    | .python =>
      "(" ++ text d whenTrue ++ " if " ++ text d condition ++ " else " ++ text d whenFalse ++ ")"
  | inert token operand =>
    match d with
    | .javaScript => "/* " ++ cleanToken token ++ " */ " ++ text d operand
    | .python => "(" ++ text d operand ++ " if True else '" ++ cleanToken token ++ "')"
  | write slot value => slot.assignment (text d value)

def texts (d : Dialect) : List Expr → List String
  | [] => []
  | e :: es => text d e :: texts d es

end

end Expr

/-! ## Lines -/

/-- A line of a script.  An empty line is written without its indentation. -/
structure Line where
  depth : Nat
  text : String
  deriving Repr, DecidableEq

/-- The line as it is written. -/
def Line.written (l : Line) : String :=
  if l.text.isEmpty then "" else String.ofList (List.replicate (4 * l.depth) ' ') ++ l.text

/-- The text of lines. -/
def Line.joined (ls : List Line) : String := String.join (ls.map fun l => l.written ++ "\n")

/-- Lines at one depth. -/
def linesAt (depth : Nat) (texts : List String) : List Line := texts.map (⟨depth, ·⟩)

namespace Dialect

/-- The line that stands for an empty body, if the dialect needs one. -/
def emptyBody : Dialect → List String
  | javaScript => []
  | python => ["pass"]

/-- The line that closes a branch or a loop, if the dialect has one. -/
def blockClose : Dialect → List String
  | javaScript => ["\x7d"]
  | python => []

def branchOpen (condition : String) : Dialect → String
  | javaScript => "if (" ++ condition ++ ") \x7b"
  | python => "if " ++ condition ++ ":"

def otherwiseOpen : Dialect → String
  | javaScript => "\x7d else \x7b"
  | python => "else:"

def loopOpen (condition : String) : Dialect → String
  | javaScript => "while (" ++ condition ++ ") \x7b"
  | python => "while " ++ condition ++ ":"

def doOpen : Dialect → String
  | javaScript => "do \x7b"
  | python => "while True:"

/-- The test of a loop that has it at its end, where it is the last line of the body. -/
def doTest (condition : String) : Dialect → List String
  | javaScript => []
  | python => ["if not (" ++ condition ++ "): break"]

/-- The line that closes a loop with its test at the end, if the dialect has one. -/
def doClose (condition : String) : Dialect → List String
  | javaScript => ["\x7d while (" ++ condition ++ ");"]
  | python => []

def functionOpen (name parameters : String) : Dialect → String
  | javaScript => "var " ++ name ++ " = function(" ++ parameters ++ ") \x7b"
  | python => "def " ++ name ++ "(" ++ parameters ++ "):"

def functionClose : Dialect → List String
  | javaScript => ["\x7d;"]
  | python => []

/-- The line that opens a script. -/
def scriptOpen : Dialect → String
  | javaScript => "function(GLSL, env) \x7b"
  | python => "def shader(GLSL, env):"

/-- The line that stops in a debugger. -/
def trap : Dialect → String
  | javaScript => "debugger; RT.breakpoint();"
  | python => "RT.breakpoint()"

/-- The lines of a body: one without lines may have to say that it is empty. -/
def filled (d : Dialect) (depth : Nat) (body : List Line) : List Line :=
  if body.isEmpty then linesAt depth d.emptyBody else body

end Dialect

/-! ## Statements -/

/-- The first line of a statement, which is its only one unless it has a body. -/
def Stmt.firstLine (d : Dialect) : Stmt → String
  | eval e => e.text d ++ d.terminator
  | declare name initial =>
    let start := d.binding ++ localName name
    let text :=
      if initial.isBlank then
        match d with
        | .javaScript => start
        | .python => start ++ " = None"
      else start ++ " = " ++ initial.text d
    text ++ d.terminator
  | ret value => (if value.isBlank then "return" else "return " ++ value.text d) ++ d.terminator
  | leave => "break" ++ d.terminator
  | next => "continue" ++ d.terminator
  | branch condition _ _ => d.branchOpen (condition.text d)
  | loop condition _ => d.loopOpen (condition.text d)
  | doLoop _ _ => d.doOpen
  | function name parameters _ =>
    d.functionOpen (localName name) (", ".intercalate (Expr.texts d parameters))

/-- A statement around one body, without the body. -/
inductive Frame
  | branch (condition : Expr)
  | loop (condition : Expr)
  | doLoop (condition : Expr)
  | function (name : String) (parameters : List Expr)

namespace Frame

/-- The statement with its body. -/
def around (body : List Stmt) : Frame → Stmt
  | branch condition => .branch condition body none
  | loop condition => .loop condition body
  | doLoop condition => .doLoop condition body
  | function name parameters => .function name parameters body

/-- What is written in the body, after its statements. -/
def bodyEnd (d : Dialect) : Frame → List String
  | doLoop condition => d.doTest (condition.text d)
  | _ => []

/-- What is written after the body. -/
def close (d : Dialect) : Frame → List String
  | branch _ | loop _ => d.blockClose
  | doLoop condition => d.doClose (condition.text d)
  | function _ _ => d.functionClose

/-- The lines of the statement, with the lines of the statements in its body. -/
def lines (d : Dialect) (depth : Nat) (body : List Line) (f : Frame) : List Line :=
  ⟨depth, (f.around []).firstLine d⟩ ::
    d.filled (depth + 1) (body ++ linesAt (depth + 1) (f.bodyEnd d)) ++ linesAt depth (f.close d)

end Frame

/-- The lines of a branch with two bodies, with the lines of the statements in them. -/
def choiceLines (d : Dialect) (depth : Nat) (condition : Expr) (body other : List Line) :
    List Line :=
  ⟨depth, d.branchOpen (condition.text d)⟩ :: d.filled (depth + 1) body ++
    ⟨depth, d.otherwiseOpen⟩ :: d.filled (depth + 1) other ++ linesAt depth d.blockClose

namespace Stmt

mutual

def lines (d : Dialect) (depth : Nat) : Stmt → List Line
  | branch condition body none =>
    (Frame.branch condition).lines d depth (allLines d (depth + 1) body)
  | branch condition body (some other) =>
    choiceLines d depth condition (allLines d (depth + 1) body) (allLines d (depth + 1) other)
  | loop condition body => (Frame.loop condition).lines d depth (allLines d (depth + 1) body)
  | doLoop condition body => (Frame.doLoop condition).lines d depth (allLines d (depth + 1) body)
  | function name parameters body =>
    (Frame.function name parameters).lines d depth (allLines d (depth + 1) body)
  | s => [⟨depth, s.firstLine d⟩]

def allLines (d : Dialect) (depth : Nat) : List Stmt → List Line
  | [] => []
  | s :: rest => lines d depth s ++ allLines d depth rest

end

end Stmt

namespace Script

/-- The lines before the statements of a script. -/
def opening (d : Dialect) : List String :=
  ["", d.binding ++ catalogName ++ " = GLSL.Runtime" ++ d.terminator, ""]

/-- The lines after the statements of a script: the trap if there is one, and the entry point. -/
def ending (d : Dialect) (trap : Bool) (entry : Expr) : List String :=
  [""] ++ (if trap then [d.trap] else []) ++ [entry.text d ++ d.terminator]

def lines (d : Dialect) (s : Script) : List Line :=
  ⟨0, d.scriptOpen⟩ :: (linesAt 1 (opening d) ++ Stmt.allLines d 1 s.body ++
    linesAt 1 (ending d s.trap s.entry)) ++ linesAt 0 d.blockClose

def source (d : Dialect) (s : Script) : String := Line.joined (s.lines d)

end Script

end ShaderScript
