import ShaderScript.Text.CodePoints

/-!
# File paths

Paths are texts whose components are divided by slashes.  `clean` is the shortest text of a path
that names the same place without looking at any file; `relative?` leads from one place to another.
-/

namespace ShaderScript.FilePath

/-- The texts between slashes. -/
def pieces (path : String) : List String :=
  (Text.splitAt '/' path.toList).map String.ofList

/-- Whether a path starts at the root. -/
def isAbsolute (path : String) : Bool := path.toList.head? = some '/'

/-- Adds a component to a cleaned list that is kept in reverse. -/
def push (rooted : Bool) (kept : List String) (component : String) : List String :=
  if component = "" ∨ component = "." then kept
  else if component = ".." then
    match kept with
    | [] => if rooted then [] else [".."]
    | last :: rest => if last = ".." then ".." :: kept else rest
  else component :: kept

/-- The components of a path, without empty ones and dots, and with each `..` taken back as far as
possible. -/
def components (path : String) : List String :=
  ((pieces path).foldl (push (isAbsolute path)) []).reverse

def ofComponents (rooted : Bool) (parts : List String) : String :=
  if parts.isEmpty then (if rooted then "/" else ".")
  else (if rooted then "/" else "") ++ String.intercalate "/" parts

/-- The shortest equivalent path. -/
def clean (path : String) : String := ofComponents (isAbsolute path) (components path)

/-- Joins parts, leaving out empty ones. -/
def join (parts : List String) : String :=
  match parts.filter (· ≠ "") with
  | [] => ""
  | kept => clean (String.intercalate "/" kept)

/-- The characters after the last slash, in order. -/
def lastPiece (cs : List Char) : List Char := (cs.reverse.takeWhile (· ≠ '/')).reverse

/-- The directory of a path: all but the last piece. -/
def dir (path : String) : String :=
  clean (String.ofList (path.toList.reverse.dropWhile (· ≠ '/')).reverse)

/-- The last component of a path. -/
def base (path : String) : String :=
  if path = "" then "."
  else
    match (path.toList.reverse.dropWhile (· = '/')).reverse with
    | [] => "/"
    | cs => String.ofList (lastPiece cs)

/-- The extension: the last dot of the last piece and what follows it. -/
def extension (path : String) : String :=
  let reversed := (lastPiece path.toList).reverse
  if reversed.contains '.' then
    String.ofList ('.' :: (reversed.takeWhile (· ≠ '.')).reverse)
  else ""

def withoutExtension (path : String) : String :=
  String.ofList (path.toList.take (path.length - (extension path).length))

/-- The components of a cleaned path as `relative?` compares them; the root is an empty one. -/
def steps (cleaned : String) : List String :=
  if cleaned = "" then [] else if cleaned = "/" then [""] else pieces cleaned

/-- Drops the common start of two lists. -/
def dropCommon : List String → List String → List String × List String
  | a :: as, b :: bs => if a = b then dropCommon as bs else (a :: as, b :: bs)
  | as, bs => (as, bs)

/-- The path from one place to another.  There is none between a rooted and a relative path, and
none out of a place above the start whose name is not known. -/
def relative? (source target : String) : Option String :=
  let start := clean source
  let goal := clean target
  if goal = start then some "."
  else
    let start := if start = "." then "" else start
    if isAbsolute start ≠ isAbsolute goal then none
    else
      match dropCommon (steps start) (steps goal) with
      | ([], down) => some (String.intercalate "/" down)
      | (up, down) =>
        if up.head? = some ".." ∧ down ≠ [] then none
        else some (String.intercalate "/" (up.map (fun _ => "..") ++ down))

/-- A path seen from a working directory. -/
def absolute (workingDir path : String) : String :=
  if isAbsolute path then clean path else join [workingDir, path]

end ShaderScript.FilePath
