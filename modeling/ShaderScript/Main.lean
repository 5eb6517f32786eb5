import ShaderScript.Command.Execute

/-!
# The command line

Reads the files that a command line may need, carries the command line out on them, and then writes
the files that changed.
-/

namespace ShaderScript

namespace CommandLine

/-- Takes up what stands at a place of the disk; in directories, all that is below. -/
partial def takeUp (place : Place) (deep : Bool) (t : FileTree) : IO FileTree := do
  let path := (← IO.currentDir) / ("/" ++ "/".intercalate place)
  if ← path.isDir then
    let t := t.put place .directory
    if !deep then return t
    (← path.readDir).foldlM (fun t e => takeUp (place ++ [e.fileName]) true t) t
  else if ← path.pathExists then
    return t.put place (.file (← IO.FS.readBinFile path).toList)
  else return t

/-- Takes up a path and the directories that lead to it. -/
def takeUpPath (t : FileTree) (path : String) : IO FileTree := do
  let names := (FilePath.pieces (FilePath.absolute t.workingPath path)).filter (!·.isEmpty)
  let t ← (List.range names.length).foldlM (fun t n => takeUp (names.take n) false t) t
  takeUp names true t

/-- The paths that a command line may name: its arguments, and what follows `=` in them. -/
def pathsOf (arguments : List String) : List String :=
  arguments.flatMap fun a =>
    match a.toList.dropWhile (· ≠ '=') with
    | _ :: value => [String.ofList value]
    | [] => if a.startsWith "-" then [] else [a]

/-- The paths of settings files from a directory upward. -/
def settingsPaths (workingDir : Place) : List String :=
  (List.range (workingDir.length + 1)).map fun n =>
    "/" ++ "/".intercalate (workingDir.take n ++ [Settings.fileName])

/-- The files that a command line may need. -/
def filesFor (arguments : List String) (cacheHome : String) : IO FileTree := do
  let workingDir := (FilePath.pieces (← IO.currentDir).toString).filter (!·.isEmpty)
  let start : FileTree := { workingDir }
  let start ← (List.range (workingDir.length + 1)).foldlM
    (fun t n => takeUp (workingDir.take n) false t) start
  let t ← (pathsOf arguments ++ settingsPaths workingDir).foldlM takeUpPath start
  match Settings.discover t "." with
  | .ok s =>
    let dirs := [s.cacheDir, s.outDir, FilePath.join [cacheHome, "glslgen"]].filter (!·.isEmpty)
    dirs.foldlM takeUpPath t
  | .error _ => return t

/-- Writes the files that changed, and removes those that are gone. -/
def writeBack (before after : FileTree) : IO Unit := do
  let diskPath (place : Place) : String := "/" ++ "/".intercalate place
  for (place, entry) in before.entries do
    if let .file _ := entry then
      if (after.find? place).isNone then IO.FS.removeFile (diskPath place)
  for (place, entry) in after.entries do
    if before.find? place != some entry then
      match entry with
      | .directory => IO.FS.createDirAll (diskPath place)
      | .file bytes => IO.FS.writeBinFile (diskPath place) (ByteArray.mk bytes.toArray)

/-- The bytes that are left in a stream. -/
partial def readAll (stream : IO.FS.Stream) (done : ByteArray) : IO ByteArray := do
  let bytes ← stream.read 65536
  if bytes.isEmpty then return done else readAll stream (done ++ bytes)

def cacheHome : IO String := do
  match ← IO.getEnv "XDG_CACHE_HOME" with
  | some dir => if dir.isEmpty then fallback else return dir
  | none => fallback
where
  fallback : IO String := do
    return FilePath.join [(← IO.getEnv "HOME").getD "", ".cache"]

/-- Carries out a command line.  The result is the status of the process. -/
def run (arguments : List String) : IO UInt32 := do
  let home ← cacheHome
  let tree ← filesFor arguments home
  let input ← if arguments.contains "-" then readAll (← IO.getStdin) .empty else pure .empty
  let (result, s) := Command.execute
    { arguments, tree, input := input.toList, terminal := ← (← IO.getStdout).isTty, cacheHome := home }
  writeBack tree s.tree
  IO.print s.output
  IO.eprint (s.liveTrace ++ s.errors)
  match result with
  | .ok _ => return 0
  | .error e =>
    IO.eprintln ("Error: " ++ e.message)
    return 1

end CommandLine

end ShaderScript

def main (arguments : List String) : IO UInt32 := ShaderScript.CommandLine.run arguments
