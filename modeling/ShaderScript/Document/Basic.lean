import ShaderScript.Number.Layout
import ShaderScript.Number.Numeral
import ShaderScript.Text.Quoted

/-!
# Generic documents

What a JSON, MessagePack or TOML file holds before it is given a meaning.  A number keeps the form
it had in the file, because messages name that form; `Quantity.toFloat` is the number it denotes,
whatever its form.
-/

namespace ShaderScript

/-- The widths of integers in binary files. -/
inductive IntegerForm
  | int8
  | int16
  | int32
  | int64
  | uint8
  | uint16
  | uint32
  | uint64
  deriving Repr, DecidableEq

def IntegerForm.name : IntegerForm → String
  | .int8 => "int8"
  | .int16 => "int16"
  | .int32 => "int32"
  | .int64 => "int64"
  | .uint8 => "uint8"
  | .uint16 => "uint16"
  | .uint32 => "uint32"
  | .uint64 => "uint64"

/-- A number as a file holds it. -/
inductive Quantity
  /-- A decimal in a text file. -/
  | decimal (text : String)
  | integer (form : IntegerForm) (value : Int)
  | single (value : Float)
  | double (value : Float)

namespace Quantity

/-- The name of the number's form in messages. -/
def kindName : Quantity → String
  | .decimal _ => "json.Number"
  | .integer form _ => form.name
  | .single _ => "float32"
  | .double _ => "float64"

/-- The double nearest to the number. -/
def toFloat : Quantity → Except NumeralError Float
  | .decimal text => Numeral.read text
  | .integer _ value => .ok (Float.ofInt value)
  | .single value => .ok value
  | .double value => .ok value

end Quantity

/-- A document: the values that the file formats share. -/
inductive Document
  | null
  | bool (value : Bool)
  | number (value : Quantity)
  | text (value : String)
  | bytes (value : List UInt8)
  /-- A point in time; nothing looks inside. -/
  | instant
  | list (items : List Document)
  | table (entries : List (String × Document))

instance : Inhabited Document := ⟨.null⟩

namespace Document

/-- The name of a document's kind in messages. -/
def kindName : Document → String
  | .null => "<nil>"
  | .bool _ => "bool"
  | .number value => value.kindName
  | .text _ => "string"
  | .bytes _ => "[]uint8"
  | .instant => "time.Time"
  | .list _ => "[]interface \x7b\x7d"
  | .table _ => "map[string]interface \x7b\x7d"

/-- The value of a key.  Of two entries with one key the later counts. -/
def lookup {α : Type} (key : String) : List (String × α) → Option α
  | [] => none
  | (k, v) :: rest =>
    match lookup key rest with
    | some later => some later
    | none => if k = key then some v else none

/-- A whole number. -/
def int (i : Int) : Document := .number (.decimal (intText i))

/-! ## JSON text -/

def scalarText : Document → String
  | .bool true => "true"
  | .bool false => "false"
  | .number (.decimal digits) => digits
  | .number (.integer _ value) => intText value
  | .number (.single value) => FloatLayout.plain.text value
  | .number (.double value) => FloatLayout.plain.text value
  | .text value => Text.jsonQuoted value
  | _ => "null"

/-- A line break and the blanks of a nesting depth. -/
def lineBreak (depth : Nat) : String := "\n" ++ String.ofList (List.replicate (2 * depth) ' ')

mutual

/-- The JSON text without any blanks. -/
def compact : Document → String
  | .list items => "[" ++ String.intercalate "," (compactItems items) ++ "]"
  | .table entries => "\x7b" ++ String.intercalate "," (compactEntries entries) ++ "\x7d"
  | scalar => scalarText scalar

def compactItems : List Document → List String
  | [] => []
  | d :: rest => compact d :: compactItems rest

def compactEntries : List (String × Document) → List String
  | [] => []
  | (k, d) :: rest => (Text.jsonQuoted k ++ ":" ++ compact d) :: compactEntries rest

end

mutual

/-- The JSON text with one element or entry a line, indented by two blanks a level. -/
def indented (depth : Nat) : Document → String
  | .list items =>
    if items.isEmpty then "[]"
    else "[" ++ String.intercalate "," (indentedItems (depth + 1) items) ++ lineBreak depth ++ "]"
  | .table entries =>
    if entries.isEmpty then "\x7b\x7d"
    else "\x7b" ++ String.intercalate "," (indentedEntries (depth + 1) entries)
      ++ lineBreak depth ++ "\x7d"
  | scalar => scalarText scalar

def indentedItems (depth : Nat) : List Document → List String
  | [] => []
  | d :: rest => (lineBreak depth ++ indented depth d) :: indentedItems depth rest

def indentedEntries (depth : Nat) : List (String × Document) → List String
  | [] => []
  | (k, d) :: rest =>
    (lineBreak depth ++ Text.jsonQuoted k ++ ": " ++ indented depth d) :: indentedEntries depth rest

end

end Document

end ShaderScript
