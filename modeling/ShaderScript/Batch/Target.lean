import ShaderScript.FileTree
import ShaderScript.Text.Case

/-!
# The files of a batch

Which files a batch takes in, and where their scripts go.
-/

namespace ShaderScript

namespace Batch

/-- Whether a file holds a shader, by its extension. -/
def isDescriptor (path : String) : Bool :=
  [".json", ".msgpack", ".mp"].contains (Text.lowerCase (FilePath.extension path))

/-- The shader files in a directory and below it, sorted. -/
def listDescriptors (t : FileTree) (dir : String) : Except FileFailure (List String) := do
  match ← t.status "lstat" dir with
  | .file _ => return [dir].filter isDescriptor
  | .directory =>
    let place := (t.resolve dir).toOption.getD []
    let paths := (t.filesBelow place).map fun names => FilePath.join (dir :: names)
    return (paths.filter isDescriptor).mergeSort fun a b => decide (a ≤ b)

/-- Whether a path leads out of the directory it starts from. -/
def leavesDir (relative : String) : Bool := relative = ".." || relative.startsWith "../"

/-- Whether a directory holds a file, by their names. -/
def holds (dir file : String) : Bool :=
  match FilePath.relative? dir file with
  | some relative => !relative.startsWith ".."
  | none => false

/-- The nearest directory, from one upward, that holds a file.  The fuel bounds the climb. -/
def climb (file : String) : Nat → String → String
  | 0, dir => dir
  | fuel + 1, dir =>
    if holds dir file then dir
    else
      let parent := FilePath.dir dir
      if parent = dir then dir else climb file fuel parent

/-- The deepest directory that holds all files. -/
def commonDir : List String → String
  | [] => "."
  | first :: rest =>
    rest.foldl (fun dir file => climb file (dir.length + 1) dir) (FilePath.dir first)

/-- The place of a file below the root, or its last name if it is not below it. -/
def placeBelow (root path : String) : String :=
  match FilePath.relative? root path with
  | some relative => if leavesDir relative then FilePath.base path else relative
  | none => FilePath.base path

/-- Where the script of a file goes. -/
def outputPath (outDir root extension path : String) : String :=
  FilePath.join [outDir, FilePath.withoutExtension (placeBelow root path) ++ extension]

/-- Where a script goes, and the other files whose scripts go there too. -/
structure Target where
  path : String
  rivals : List String := []
  deriving Repr, DecidableEq, Inhabited

/-- The text for a target with rivals. -/
def Target.conflict (t : Target) : String :=
  "output " ++ t.path ++ " is also the target of " ++ ", ".intercalate t.rivals

/-- The files other than number `i` whose scripts go to a path. -/
def rivalsOf (paths files : List String) (i : Nat) (path : String) : List String :=
  ((paths.zip files).zipIdx.filter fun ((p, _), j) => p == path && j != i).map fun ((_, f), _) => f

/-- The targets of files, in order. -/
def targets (files : List String) (outDir root extension : String) : List Target :=
  let root := if root.isEmpty then commonDir files else root
  let paths := files.map (outputPath outDir root extension)
  paths.zipIdx.map fun (path, i) => ⟨path, rivalsOf paths files i path⟩

end Batch

end ShaderScript
