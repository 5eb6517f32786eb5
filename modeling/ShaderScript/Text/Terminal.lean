import ShaderScript.Text.Cells

/-!
# Text on a terminal

Coloured spans, and text laid out in cells: blocks of lines of equal width, and frames around them.
-/

namespace ShaderScript.Text

/-- Text between two control sequences. -/
def escaped (start stop text : String) : String :=
  "\x1b[" ++ start ++ "m" ++ text ++ "\x1b[" ++ stop ++ "m"

/-- Text in a colour, if colours are on. -/
def colored (on : Bool) (color : Nat) (text : String) : String :=
  if on then escaped (toString color) "0" text else text

/-- Bold text in a colour, if colours are on. -/
def boldColored (on : Bool) (color : Nat) (text : String) : String :=
  if on then escaped (toString color ++ ";1") "0;22" text else text

/-- Faint text, if colours are on. -/
def faint (on : Bool) (text : String) : String := if on then escaped "2" "22" text else text

/-- The lines of a text; a last empty one counts. -/
def linesOf (s : String) : List String := (splitAt '\n' s.toList).map String.ofList

/-- A text as it is laid out: tabs are four blanks, and a line ends with a line feed alone. -/
def laidOut : List Char → List Char
  | [] => []
  | '\r' :: '\n' :: rest => '\n' :: laidOut rest
  | '\t' :: rest => ' ' :: ' ' :: ' ' :: ' ' :: laidOut rest
  | c :: rest => c :: laidOut rest

/-- `n` times a character. -/
def times (n : Nat) (c : Char) : String := String.ofList (List.replicate n c)

/-- A line filled with blanks up to a width. -/
def fillCells (width : Nat) (line : String) : String := line ++ times (width - cells line) ' '

/-- The width of the widest line. -/
def widest (lines : List String) : Nat := lines.foldl (fun w l => max w (cells l)) 0

/-- A text as a block: all its lines have one width. -/
def block (s : String) : String :=
  let lines := linesOf (String.ofList (laidOut s.toList))
  "\n".intercalate (lines.map (fillCells (widest lines)))

/-- A text in a frame with round corners, with a blank on either side. -/
def framed (s : String) : String :=
  let lines := linesOf (String.ofList (laidOut s.toList))
  let width := widest lines
  let rule := times (width + 2) '─'
  "\n".intercalate
    (["╭" ++ rule ++ "╮"] ++ lines.map (fun l => "│ " ++ fillCells width l ++ " │") ++
      ["╰" ++ rule ++ "╯"])

end ShaderScript.Text
