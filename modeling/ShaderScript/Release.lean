import ShaderScript.Text.Space
import ShaderScript.Text.Terminal
import ShaderScript.Text.Utf8

/-!
# Releases

The version of the program and the commit it was built from.
-/

namespace ShaderScript

open Text

/-- What a build says about itself. -/
structure Release where
  version : String := "0.1.0-dev"
  commit : String := ""
  date : String := ""
  deriving Repr, DecidableEq, Inhabited

namespace Release

/-- The version, or `dev` if there is none. -/
def name (r : Release) : String :=
  let version := trim r.version
  if version.isEmpty then "dev" else version

/-- Splits a text at the first two points. -/
def parts (core : List Char) : Option (List Char × List Char × List Char) :=
  match core.span (· ≠ '.') with
  | (major, '.' :: rest) =>
    match rest.span (· ≠ '.') with
    | (minor, '.' :: patch) => some (major, minor, patch)
    | _ => none
  | _ => none

/-- The version with its three numbers in colours of their own; what follows them is plain. -/
def colored (color : Bool) (r : Release) : String :=
  let (core, suffix) := r.name.toList.span fun c => c ≠ '-' ∧ c ≠ '+'
  match parts core with
  | none => r.name
  | some (major, minor, patch) =>
    boldColored color 33 (String.ofList major) ++ "." ++ boldColored color 32 (String.ofList minor) ++
      "." ++ boldColored color 34 (String.ofList patch) ++ String.ofList suffix

/-- The first twelve bytes of the commit. -/
def shortCommit (r : Release) : String :=
  String.ofList (decodeLossy ((bytesOf (trim r.commit)).take 12))

end Release

end ShaderScript
