import ShaderScript.Text.FilePath

/-!
# File trees

Files and directories as a value: what there is, where one stands in it, and the operations on it.
A path is followed name by name, so that each directory on the way has to be there.
-/

namespace ShaderScript

/-- What stands at a place. -/
inductive FileEntry
  | directory
  | file (bytes : List UInt8)
  deriving Repr, DecidableEq

/-- Why an operation on a path failed. -/
inductive FileFault
  | missing
  | notDirectory
  | isDirectory
  | exists
  deriving Repr, DecidableEq

def FileFault.words : FileFault → String
  | missing => "no such file or directory"
  | notDirectory => "not a directory"
  | isDirectory => "is a directory"
  | .exists => "file exists"

/-- A failed operation on a path. -/
structure FileFailure where
  operation : String
  path : String
  fault : FileFault
  deriving Repr, DecidableEq

def FileFailure.message (f : FileFailure) : String :=
  f.operation ++ " " ++ f.path ++ ": " ++ f.fault.words

/-- The names from the root down to a place. -/
abbrev Place := List String

/-- Files and directories below a root, and the directory one stands in. -/
structure FileTree where
  workingDir : Place := []
  entries : List (Place × FileEntry) := []

namespace FileTree

/-- The path of the directory one stands in. -/
def workingPath (t : FileTree) : String := "/" ++ "/".intercalate t.workingDir

/-- What stands at a place; the root is a directory. -/
def find? (t : FileTree) (place : Place) : Option FileEntry :=
  if place.isEmpty then some .directory else t.entries.lookup place

/-- Puts an entry at a place. -/
def put (t : FileTree) (place : Place) (e : FileEntry) : FileTree :=
  { t with entries := t.entries.filter (fun (p, _) => p ≠ place) ++ [(place, e)] }

/-- Follows names from a directory.  Every one but the last has to be a directory. -/
def follow (t : FileTree) (place : Place) : List String → Except FileFault Place
  | [] => .ok place
  | name :: rest =>
    match t.find? place with
    | none => .error .missing
    | some (.file _) => .error .notDirectory
    | some .directory =>
      if name = "" ∨ name = "." then t.follow place rest
      else if name = ".." then t.follow place.dropLast rest
      else t.follow (place ++ [name]) rest

/-- The place of a path.  An empty path leads nowhere. -/
def resolve (t : FileTree) (path : String) : Except FileFault Place :=
  if path.isEmpty then .error .missing
  else t.follow (if FilePath.isAbsolute path then [] else t.workingDir) (FilePath.pieces path)

def entry (t : FileTree) (path : String) : Except FileFault FileEntry := do
  match t.find? (← t.resolve path) with
  | some e => return e
  | none => throw .missing

/-- What a path leads to, for an operation. -/
def status (t : FileTree) (operation path : String) : Except FileFailure FileEntry :=
  (t.entry path).mapError fun fault => ⟨operation, path, fault⟩

def read (t : FileTree) (path : String) : Except FileFailure (List UInt8) := do
  match ← t.status "open" path with
  | .file bytes => return bytes
  | .directory => throw ⟨"read", path, .isDirectory⟩

/-- Writes a file; its directory has to be there. -/
def write (t : FileTree) (path : String) (bytes : List UInt8) : Except FileFailure FileTree :=
  let failed (fault : FileFault) : Except FileFailure FileTree := .error ⟨"open", path, fault⟩
  match t.resolve path with
  | .error fault => failed fault
  | .ok place =>
    match t.find? place with
    | some .directory => failed .isDirectory
    | _ =>
      match t.find? place.dropLast with
      | some .directory => .ok (t.put place (.file bytes))
      | some (.file _) => failed .notDirectory
      | none => failed .missing

def makeDir (t : FileTree) (path : String) : Except FileFailure FileTree :=
  let failed (fault : FileFault) : Except FileFailure FileTree := .error ⟨"mkdir", path, fault⟩
  let path := String.ofList (path.toList.reverse.dropWhile (· = '/')).reverse
  match t.resolve path with
  | .error fault => failed fault
  | .ok place =>
    match t.find? place with
    | some _ => failed .exists
    | none =>
      match t.find? place.dropLast with
      | some .directory => .ok (t.put place .directory)
      | some (.file _) => failed .notDirectory
      | none => failed .missing

/-- The path before its last name, up to and with the slash. -/
def parentPath (path : String) : String :=
  let cs := path.toList.reverse.dropWhile (· = '/')
  String.ofList (cs.dropWhile (· ≠ '/')).reverse

/-- Makes a directory and those above it; one that is there already is fine.  The fuel bounds the
number of names. -/
def makeDirsWith : Nat → FileTree → String → Except FileFailure FileTree
  | 0, t, _ => .ok t
  | fuel + 1, t, path =>
    match t.entry path with
    | .ok .directory => .ok t
    | .ok (.file _) => .error ⟨"mkdir", path, .notDirectory⟩
    | .error _ => do
      let parent := parentPath path
      let t ← if parent.isEmpty then pure t else makeDirsWith fuel t parent
      match t.makeDir path with
      | .ok t => return t
      | .error e => if (t.entry path).toOption == some .directory then return t else throw e

/-- Makes a directory and those above it. -/
def makeDirs (t : FileTree) (path : String) : Except FileFailure FileTree :=
  makeDirsWith (path.length + 1) t path

/-- Removes a place and all that is below it. -/
def removeAll (t : FileTree) (place : Place) : FileTree :=
  { t with entries := t.entries.filter fun (p, _) => !place.isPrefixOf p }

/-- The files at a place and below it, by the names that lead to them. -/
def filesBelow (t : FileTree) (place : Place) : List Place :=
  t.entries.filterMap fun (p, e) =>
    match e with
    | .file _ => if place.isPrefixOf p then some (p.drop place.length) else none
    | .directory => none

end FileTree

end ShaderScript
