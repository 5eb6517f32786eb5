/-!
# Lower case

Keywords are matched in any case.  They are ASCII, so only characters with an ASCII lower case form
matter: the letters `A` to `Z`, the capital I with a dot above and the Kelvin sign.
-/

namespace ShaderScript.Text

/-- A character in lower case, if that is an ASCII letter; any other stays. -/
def lowerChar (c : Char) : Char :=
  if c.toNat = 0x130 then 'i' else if c.toNat = 0x212A then 'k' else c.toLower

/-- A text with its characters in lower case where that is an ASCII letter. -/
def lowerCase (s : String) : String := String.ofList (s.toList.map lowerChar)

end ShaderScript.Text
