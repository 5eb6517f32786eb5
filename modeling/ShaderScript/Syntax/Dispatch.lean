import ShaderScript.Syntax.Node

/-!
# Rules by tag

A component that treats some kinds of nodes has a rule for each of their tags.  A rule yields a
text, and the empty text means that there is no value.
-/

namespace ShaderScript

/-- The text for a node that a component has no rule for. -/
def unsupportedNodeText (component tag : String) (pos : Position) : String :=
  component ++ ": " ++ tag ++ (if pos.isKnown then " at " ++ pos.text else "") ++
    ": unsupported node"

/-- A node without a rule. -/
structure UnsupportedNode where
  component : String
  tag : String
  pos : Position
  deriving Repr, DecidableEq

def UnsupportedNode.message (e : UnsupportedNode) : String :=
  unsupportedNodeText e.component e.tag e.pos

/-- The rules of a component; `κ` is what is handed down to them. -/
structure Dispatcher (κ : Type) where
  component : String
  rules : List (Tag × (κ → Node → String))

namespace Dispatcher

variable {κ : Type}

def ignore (_ : κ) (_ : Node) : String := ""

/-- Whether there is a rule for a tag. -/
def handles (d : Dispatcher κ) (tag : Tag) : Bool := (d.rules.lookup tag).isSome

/-- The tags with a rule, in the order of tags. -/
def handled (d : Dispatcher κ) : List Tag := Tag.all.filter d.handles

/-- Applies the rule for a node; an empty place yields nothing. -/
def visit (d : Dispatcher κ) (context : κ) (n : Node) : Except UnsupportedNode String :=
  match n.tag? with
  | none => .ok ""
  | some tag =>
    match d.rules.lookup tag with
    | some rule => .ok (rule context n)
    | none => .error ⟨d.component, n.tagName, n.pos⟩

/-- Visits nodes in order and keeps the values there are. -/
def visitAll (d : Dispatcher κ) (context : κ) : List Node → Except UnsupportedNode (List String)
  | [] => .ok []
  | n :: rest => do
    let first ← d.visit context n
    let others ← d.visitAll context rest
    return if first.isEmpty then others else first :: others

end Dispatcher

end ShaderScript
