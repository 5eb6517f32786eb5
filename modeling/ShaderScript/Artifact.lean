import ShaderScript.Diagnostic.Basic
import ShaderScript.Document.MessagePack
import ShaderScript.FileTree
import ShaderScript.Text.Digest

/-!
# Artifacts and their cache

An artifact is what came of one shader file in one style.  The cache keeps artifacts as files under
a digest of the style and the file's bytes, so that equal files share one.
-/

namespace ShaderScript

/-- What came of a shader file that could be lowered. -/
structure Artifact where
  schema : Nat := 0
  style : String := ""
  name : String := ""
  source : String := ""
  /-- Why the script did not load, if it did not. -/
  diagnostic : String := ""
  diagnostics : List Diagnostic := []
  deriving Repr, DecidableEq, Inhabited

/-- Where an artifact is kept. -/
structure ArtifactKey where
  digest : String
  deriving Repr, DecidableEq

namespace Artifact

/-- The number of the form that artifacts have; those with another are not used. -/
def currentSchema : Nat := 1

/-- The key of a shader file in a style. -/
def key (style : String) (bytes : List UInt8) : ArtifactKey :=
  let head := "glslgen/" ++ natText currentSchema ++ "/" ++ style ++ "\x00"
  ⟨(Digest.sha256 (Text.bytesOf head ++ bytes)).hex⟩

/-! ## Writing -/

def natDocument (form : IntegerForm) (n : Nat) : Document := .number (.integer form n)

def positionDocument (p : Position) : Document :=
  .table [("Line", .number (.integer .int64 p.line)), ("Col", .number (.integer .int64 p.col))]

def noteDocument (n : Note) : Document :=
  .table [("Pos", positionDocument n.pos), ("Msg", .text n.message)]

def diagnosticDocument (d : Diagnostic) : Document :=
  .table [("Severity", natDocument .uint8 d.severity.rank),
    ("Code", natDocument .uint16 d.code.number), ("Message", .text d.message),
    ("Pos", positionDocument d.pos),
    ("Notes", .list (d.notes.map noteDocument))]

def toDocument (a : Artifact) : Document :=
  .table [("Schema", natDocument .uint16 a.schema), ("Style", .text a.style), ("Name", .text a.name),
    ("Source", .text a.source), ("Diagnostic", .text a.diagnostic),
    ("Diagnostics", .list (a.diagnostics.map diagnosticDocument))]

/-! ## Reading -/

/-- The members of a record that are there: by name in a table, by order in a full list.  Nothing
and the empty list are the record without members. -/
def members? (names : List String) : Document → Option (List (String × Document))
  | .null => some []
  | .table entries => some entries
  | .list [] => some []
  | .list items => if items.length = names.length then some (names.zip items) else none
  | _ => none

/-- A text; nothing is the empty one. -/
def text? : Document → Option String
  | .null => some ""
  | .text s => some s
  | .bytes b => some (String.ofList (Text.decodeLossy b))
  | _ => none

/-- An integer; nothing is 0. -/
def int? : Document → Option Int
  | .null => some 0
  | .number (.integer _ i) => some i
  | _ => none

/-- The items of a list; nothing is the empty one. -/
def items? : Document → Option (List Document)
  | .null => some []
  | .list items => some items
  | _ => none

/-- A member, or a value for one that is not there. -/
def member? {α : Type} (entries : List (String × Document)) (name : String)
    (read : Document → Option α) (absent : α) : Option α :=
  match Document.lookup name entries with
  | some d => read d
  | none => some absent

/-- A natural number below a bound, cut to it. -/
def natBelow? (bound : Nat) (d : Document) : Option Nat :=
  (int? d).map fun i => (i % (bound : Int)).toNat

def position? (d : Document) : Option Position := do
  let entries ← members? ["Line", "Col"] d
  return ⟨← member? entries "Line" int? 0, ← member? entries "Col" int? 0⟩

def note? (d : Document) : Option Note := do
  let entries ← members? ["Pos", "Msg"] d
  return ⟨← member? entries "Pos" position? .unknown, ← member? entries "Msg" text? ""⟩

def diagnostic? (d : Document) : Option Diagnostic := do
  let entries ← members? ["Severity", "Code", "Message", "Pos", "Notes"] d
  return {
    severity := .ofRank (← member? entries "Severity" (natBelow? 256) 0)
    code := ⟨← member? entries "Code" (natBelow? 65536) 0⟩
    message := ← member? entries "Message" text? ""
    pos := ← member? entries "Pos" position? .unknown
    notes := ← (← member? entries "Notes" items? []).mapM note? }

/-- The artifact that a document holds. -/
def ofDocument? (d : Document) : Option Artifact := do
  let entries ← members? ["Schema", "Style", "Name", "Source", "Diagnostic", "Diagnostics"] d
  return {
    schema := ← member? entries "Schema" (natBelow? 65536) 0
    style := ← member? entries "Style" text? ""
    name := ← member? entries "Name" text? ""
    source := ← member? entries "Source" text? ""
    diagnostic := ← member? entries "Diagnostic" text? ""
    diagnostics := ← (← member? entries "Diagnostics" items? []).mapM diagnostic? }

def toBytes (a : Artifact) : List UInt8 := MessagePack.write a.toDocument

/-- The artifact of a file, unless the file is damaged. -/
def ofBytes? (bytes : List UInt8) : Option Artifact := (MessagePack.read bytes).bind ofDocument?

end Artifact

/-- Why the cache could not be used. -/
inductive CacheError
  | file (failure : FileFailure)
  | damaged (key : ArtifactKey)
  deriving Repr, DecidableEq

def CacheError.message : CacheError → String
  | file failure => "cache: " ++ failure.message
  | damaged key => "cache: decode " ++ key.digest ++ ": damaged artifact"

/-- A directory of artifacts. -/
structure ArtifactCache where
  dir : String
  deriving Repr, DecidableEq

namespace ArtifactCache

/-- Opens a cache and makes its directory.  Without one it is the tool's own below `home`. -/
def openIn (t : FileTree) (home dir : String) : Except CacheError (ArtifactCache × FileTree) :=
  let dir := if dir.isEmpty then FilePath.join [home, "glslgen"] else dir
  match t.makeDirs dir with
  | .ok t => .ok (⟨dir⟩, t)
  | .error e => .error (.file e)

/-- The directory of the artifacts. -/
def artifactsDir (c : ArtifactCache) : String := FilePath.join [c.dir, "artifacts"]

def pathFor (c : ArtifactCache) (key : ArtifactKey) : String :=
  FilePath.join [c.dir, "artifacts", key.digest ++ ".mp"]

/-- Keeps an artifact. -/
def put (c : ArtifactCache) (t : FileTree) (key : ArtifactKey) (a : Artifact) :
    Except CacheError FileTree :=
  let path := c.pathFor key
  match t.makeDirs (FilePath.dir path) with
  | .error e => .error (.file e)
  | .ok t =>
    match t.write path { a with schema := Artifact.currentSchema }.toBytes with
    | .ok t => .ok t
    | .error e => .error (.file e)

/-- The artifact of a key, if there is one with the current form. -/
def get (c : ArtifactCache) (t : FileTree) (key : ArtifactKey) :
    Except CacheError (Option Artifact) :=
  match t.read (c.pathFor key) with
  | .error e => if e.fault = .missing then .ok none else .error (.file e)
  | .ok bytes =>
    match Artifact.ofBytes? bytes with
    | none => .error (.damaged key)
    | some a => .ok (if a.schema = Artifact.currentSchema then some a else none)

def dropAll (c : ArtifactCache) (t : FileTree) : Except CacheError FileTree :=
  match t.resolve c.artifactsDir with
  | .error .missing => .ok t
  | .error fault => .error (.file ⟨"rename", c.artifactsDir, fault⟩)
  | .ok place => .ok (t.removeAll place)

end ArtifactCache

end ShaderScript
