import ShaderScript.Text.Quoted

/-!
# TOML documents

What a TOML file holds: tables of values.  A table that is written as `[[name]]` elements is kept
apart from a list of values.
-/

namespace ShaderScript.Toml

/-- A value. -/
inductive Value
  | bool (value : Bool)
  | integer (value : Int)
  | float (value : Float)
  | text (value : String)
  /-- A date, a time or both; nothing looks inside. -/
  | instant
  | list (items : List Value)
  | table (entries : List (String × Value))
  /-- The elements of an array of tables. -/
  | tables (elements : List (List (String × Value)))

instance : Inhabited Value := ⟨.bool false⟩

/-- The entries of a table, at most one for each name. -/
abbrev Table := List (String × Value)

/-- The names that lead from the root of a document to a value. -/
abbrev Key := List String

/-- The name of a value's kind in messages. -/
def Value.kindName : Value → String
  | .bool _ => "bool"
  | .integer _ => "int64"
  | .float _ => "float64"
  | .text _ => "string"
  | .instant => "time.Time"
  | .list _ => "[]interface \x7b\x7d"
  | .table _ => "map[string]interface \x7b\x7d"
  | .tables _ => "[]map[string]interface \x7b\x7d"

/-- Characters that a name may hold without quotes. -/
def isBareChar (c : Char) : Bool := c.isAlphanum || c = '_' || c = '-'

/-- A character of a quoted name. -/
def nameChar (c : Char) : List Char :=
  if c = '"' then ['\\', '"']
  else if c = '\\' then ['\\', '\\']
  else if c = '\t' then ['\\', 't']
  else if c = '\n' then ['\\', 'n']
  else if c = '\r' then ['\\', 'r']
  else if c.toNat = 8 then ['\\', 'b']
  else if c.toNat = 12 then ['\\', 'f']
  else if c.toNat < 32 ∨ c.toNat = 127 then '\\' :: 'u' :: Text.hexText 4 c.toNat
  else [c]

/-- A name as it is written in a key, in quotes where it needs them. -/
def nameText (name : String) : String :=
  if name.isEmpty then "\"\""
  else if name.toList.all isBareChar then name
  else "\"" ++ String.ofList (name.toList.flatMap nameChar) ++ "\""

def keyText (key : Key) : String := ".".intercalate (key.map nameText)

end ShaderScript.Toml
