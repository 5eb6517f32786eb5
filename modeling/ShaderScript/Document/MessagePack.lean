import ShaderScript.Document.Basic
import ShaderScript.Text.Utf8

/-!
# MessagePack

`MessagePack.read` reads the first value of a byte string; `write` is the encoder of cache
artifacts, which need texts, integers, lists and tables only.
-/

namespace ShaderScript.MessagePack

/-- The number of big-endian bytes. -/
def bigEndian (bytes : List UInt8) : Nat := bytes.foldl (fun n b => 256 * n + b.toNat) 0

/-- The first `n` bytes and the rest, if there are as many. -/
def split (n : Nat) (bytes : List UInt8) : Option (List UInt8 × List UInt8) :=
  let head := bytes.take n
  if head.length = n then some (head, bytes.drop n) else none

/-- An unsigned number of `width` bytes. -/
def unsigned (width : Nat) (bytes : List UInt8) : Option (Nat × List UInt8) :=
  (split width bytes).map fun (head, rest) => (bigEndian head, rest)

/-- A signed number of `width` bytes in two's complement. -/
def signed (width : Nat) (bytes : List UInt8) : Option (Int × List UInt8) :=
  (unsigned width bytes).map fun (n, rest) => (Int.bmod n (Nat.pow 256 width), rest)

/-- An integer of a width in bytes and its form. -/
def unsignedNumber (width : Nat) (form : IntegerForm) (bytes : List UInt8) :
    Option (Document × List UInt8) :=
  (unsigned width bytes).map fun (n, rest) => (.number (.integer form n), rest)

/-- A signed integer of a width in bytes and its form. -/
def signedNumber (width : Nat) (form : IntegerForm) (bytes : List UInt8) :
    Option (Document × List UInt8) :=
  (signed width bytes).map fun (i, rest) => (.number (.integer form i), rest)

/-- A text of a given length. -/
def textOf (length : Nat) (bytes : List UInt8) : Option (String × List UInt8) :=
  (split length bytes).map fun (head, rest) => (String.ofList (Text.decodeLossy head), rest)

/-- A text whose length is a number of `width` bytes. -/
def sizedText (width : Nat) (bytes : List UInt8) : Option (String × List UInt8) :=
  (unsigned width bytes).bind fun (n, rest) => textOf n rest

/-- A byte string whose length is a number of `width` bytes. -/
def sizedBytes (width : Nat) (bytes : List UInt8) : Option (Document × List UInt8) :=
  (unsigned width bytes).bind fun (n, rest) =>
    (split n rest).map fun (head, rest) => (.bytes head, rest)

/-- A key: any string or byte string; nil is the empty key. -/
def key (bytes : List UInt8) : Option (String × List UInt8) :=
  match bytes with
  | [] => none
  | b :: rest =>
    if b = 0xC0 then some ("", rest)
    else if 0xA0 ≤ b ∧ b < 0xC0 then textOf (b.toNat - 0xA0) rest
    else if b = 0xD9 ∨ b = 0xC4 then sizedText 1 rest
    else if b = 0xDA ∨ b = 0xC5 then sizedText 2 rest
    else if b = 0xDB ∨ b = 0xC6 then sizedText 4 rest
    else none

/-- An extension of a given length: only points in time are known. -/
def extension (length : Nat) (bytes : List UInt8) : Option (Document × List UInt8) :=
  match bytes with
  | 0xFF :: rest =>
    if length = 4 ∨ length = 8 ∨ length = 12 then
      (split length rest).map fun (_, rest) => (.instant, rest)
    else none
  | _ => none

/-- An extension whose length is a number of `width` bytes. -/
def sizedExtension (width : Nat) (bytes : List UInt8) : Option (Document × List UInt8) :=
  (unsigned width bytes).bind fun (n, rest) => extension n rest

mutual

/-- A value.  The fuel bounds the number of bytes read. -/
def value : Nat → List UInt8 → Option (Document × List UInt8)
  | 0, _ => none
  | _ + 1, [] => none
  | fuel + 1, b :: rest =>
    if b < 0x80 then some (.number (.integer .int8 b.toNat), rest)
    else if b < 0x90 then table fuel (b.toNat - 0x80) rest
    else if b < 0xA0 then list fuel (b.toNat - 0x90) rest
    else if b < 0xC0 then (textOf (b.toNat - 0xA0) rest).map fun (s, rest) => (.text s, rest)
    else if 0xE0 ≤ b then some (.number (.integer .int8 ((b.toNat : Int) - 256)), rest)
    else match b.toNat with
      | 0xC0 => some (.null, rest)
      | 0xC2 => some (.bool false, rest)
      | 0xC3 => some (.bool true, rest)
      | 0xC4 => sizedBytes 1 rest
      | 0xC5 => sizedBytes 2 rest
      | 0xC6 => sizedBytes 4 rest
      | 0xC7 => sizedExtension 1 rest
      | 0xC8 => sizedExtension 2 rest
      | 0xC9 => sizedExtension 4 rest
      | 0xCA =>
        (unsigned 4 rest).map fun (n, rest) =>
          (.number (.single (Float32.ofBits (UInt32.ofNat n)).toFloat), rest)
      | 0xCB =>
        (unsigned 8 rest).map fun (n, rest) =>
          (.number (.double (Float.ofBits (UInt64.ofNat n))), rest)
      | 0xCC => unsignedNumber 1 .uint8 rest
      | 0xCD => unsignedNumber 2 .uint16 rest
      | 0xCE => unsignedNumber 4 .uint32 rest
      | 0xCF => unsignedNumber 8 .uint64 rest
      | 0xD0 => signedNumber 1 .int8 rest
      | 0xD1 => signedNumber 2 .int16 rest
      | 0xD2 => signedNumber 4 .int32 rest
      | 0xD3 => signedNumber 8 .int64 rest
      | 0xD4 => extension 1 rest
      | 0xD5 => extension 2 rest
      | 0xD6 => extension 4 rest
      | 0xD7 => extension 8 rest
      | 0xD8 => extension 16 rest
      | 0xD9 => (sizedText 1 rest).map fun (s, rest) => (.text s, rest)
      | 0xDA => (sizedText 2 rest).map fun (s, rest) => (.text s, rest)
      | 0xDB => (sizedText 4 rest).map fun (s, rest) => (.text s, rest)
      | 0xDC => (unsigned 2 rest).bind fun (n, rest) => list fuel n rest
      | 0xDD => (unsigned 4 rest).bind fun (n, rest) => list fuel n rest
      | 0xDE => (unsigned 2 rest).bind fun (n, rest) => table fuel n rest
      | 0xDF => (unsigned 4 rest).bind fun (n, rest) => table fuel n rest
      | _ => none

/-- A list of a given length. -/
def list : Nat → Nat → List UInt8 → Option (Document × List UInt8)
  | 0, _, _ => none
  | fuel + 1, count, bytes =>
    (elements fuel count bytes).map fun (ds, rest) => (.list ds, rest)

/-- A table of a given number of entries. -/
def table : Nat → Nat → List UInt8 → Option (Document × List UInt8)
  | 0, _, _ => none
  | fuel + 1, count, bytes =>
    (entries fuel count bytes).map fun (es, rest) => (.table es, rest)

/-- `count` values in a row. -/
def elements : Nat → Nat → List UInt8 → Option (List Document × List UInt8)
  | 0, _, _ => none
  | _ + 1, 0, bytes => some ([], bytes)
  | fuel + 1, count + 1, bytes =>
    match value fuel bytes with
    | none => none
    | some (d, rest) => (elements fuel count rest).map fun (ds, rest) => (d :: ds, rest)

/-- `count` pairs of a key and a value. -/
def entries : Nat → Nat → List UInt8 → Option (List (String × Document) × List UInt8)
  | 0, _, _ => none
  | _ + 1, 0, bytes => some ([], bytes)
  | fuel + 1, count + 1, bytes =>
    match key bytes with
    | none => none
    | some (k, rest) =>
      match value fuel rest with
      | none => none
      | some (d, rest) => (entries fuel count rest).map fun (es, rest) => ((k, d) :: es, rest)

end

/-- The first value of a byte string.  Every value takes a byte and at most two steps besides. -/
def read (bytes : List UInt8) : Option Document :=
  (value (3 * bytes.length + 3) bytes).map (·.1)

/-! ## Writing -/

/-- A number as `width` big-endian bytes. -/
def toBytes : Nat → Nat → List UInt8
  | 0, _ => []
  | width + 1, n => toBytes width (n / 256) ++ [UInt8.ofNat n]

/-- A text with its length in front. -/
def writeText (s : String) : List UInt8 :=
  let bytes := Text.bytesOf s
  let n := bytes.length
  let head :=
    if n < 32 then [UInt8.ofNat (0xA0 + n)]
    else if n < 256 then 0xD9 :: toBytes 1 n
    else if n < 65536 then 0xDA :: toBytes 2 n
    else 0xDB :: toBytes 4 n
  head ++ bytes

/-- The head of a list of `n` elements. -/
def writeListHead (n : Nat) : List UInt8 :=
  if n < 16 then [UInt8.ofNat (0x90 + n)]
  else if n < 65536 then 0xDC :: toBytes 2 n
  else 0xDD :: toBytes 4 n

/-- The head of a table of `n` entries. -/
def writeTableHead (n : Nat) : List UInt8 :=
  if n < 16 then [UInt8.ofNat (0x80 + n)]
  else if n < 65536 then 0xDE :: toBytes 2 n
  else 0xDF :: toBytes 4 n

/-- An integer in a fixed width. -/
def writeInteger (form : IntegerForm) (i : Int) : List UInt8 :=
  let word (width : Nat) : List UInt8 := toBytes width (i % (Nat.pow 256 width : Nat)).toNat
  match form with
  | .uint8 => 0xCC :: word 1
  | .uint16 => 0xCD :: word 2
  | .uint32 => 0xCE :: word 4
  | .uint64 => 0xCF :: word 8
  | .int8 => 0xD0 :: word 1
  | .int16 => 0xD1 :: word 2
  | .int32 => 0xD2 :: word 4
  | .int64 => 0xD3 :: word 8

mutual

/-- The bytes of a document.  Decimals are written as text. -/
def write : Document → List UInt8
  | .null => [0xC0]
  | .bool false => [0xC2]
  | .bool true => [0xC3]
  | .number (.decimal text) => writeText text
  | .number (.integer form i) => writeInteger form i
  | .number (.single x) => 0xCB :: toBytes 8 x.toBits.toNat
  | .number (.double x) => 0xCB :: toBytes 8 x.toBits.toNat
  | .text s => writeText s
  | .bytes b => 0xC6 :: toBytes 4 b.length ++ b
  | .instant => [0xC0]
  | .list items => writeListHead items.length ++ writeItems items
  | .table entries => writeTableHead entries.length ++ writeEntries entries

def writeItems : List Document → List UInt8
  | [] => []
  | d :: rest => write d ++ writeItems rest

def writeEntries : List (String × Document) → List UInt8
  | [] => []
  | (k, d) :: rest => writeText k ++ write d ++ writeEntries rest

end

end ShaderScript.MessagePack
