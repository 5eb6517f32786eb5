import ShaderScript.Toml.Grammar

/-!
# Building TOML documents

The statements of a file are carried out in order.  A table may be opened in parts: by a header, by
the headers of its subtables, and by dotted keys.  A name that was only implied by others may still
be given a header of its own; any other name is given once.
-/

namespace ShaderScript.Toml

/-- A document under construction. -/
structure Draft where
  root : Table := []
  /-- Tables that are only implied by the names of others. -/
  implied : List Key := []
  /-- Names that hold a list, which may be given anew. -/
  lists : List Key := []
  /-- The keys in the order of the file. -/
  listed : List Key := []

def put (name : String) (v : Value) : Table → Table
  | [] => [(name, v)]
  | (k, w) :: rest => if k = name then (k, v) :: rest else (k, w) :: put name v rest

/-- The table at a key; of an array of tables it is the last. -/
def tableAt? : Key → Table → Option Table
  | [], t => some t
  | name :: rest, t =>
    match t.lookup name with
    | some (.table inner) => tableAt? rest inner
    | some (.tables elements) =>
      match elements.getLast? with
      | some inner => tableAt? rest inner
      | none => none
    | _ => none

/-- Changes the table at a key. -/
def changeAt (f : Table → Table) : Key → Table → Table
  | [], t => f t
  | name :: rest, t =>
    match t.lookup name with
    | some (.table inner) => put name (.table (changeAt f rest inner)) t
    | some (.tables elements) =>
      match elements.getLast? with
      | some inner => put name (.tables (elements.dropLast ++ [changeAt f rest inner])) t
      | none => t
    | _ => t

namespace Draft

/-- What stands at a name in the table at a key.  Fails if there is no such table. -/
def find? (d : Draft) (context : Key) (name : String) : Option (Option Value) :=
  (tableAt? context d.root).map (·.lookup name)

def store (d : Draft) (context : Key) (name : String) (v : Value) : Draft :=
  { d with root := changeAt (put name v) context d.root }

/-- Marks a key as implied. -/
def imply (d : Draft) (key : Key) : Draft := { d with implied := key :: d.implied }

/-- Marks a key as given. -/
def confirm (d : Draft) (key : Key) : Draft :=
  { d with implied := d.implied.filter (· ≠ key) }

/-- Notes whether a key holds a list.  An empty name stands for the table itself. -/
def note (d : Draft) (context : Key) (name : String) (isList : Bool) : Draft :=
  let key := if name.isEmpty then context else context ++ [name]
  let key := if key.isEmpty then [""] else key
  let others := d.lists.filter (· ≠ key)
  { d with lists := if isList then key :: others else others }

/-- Gives a value to a name: a new one, one that holds a list, or an implied table that is kept. -/
def give (d : Draft) (context : Key) (name : String) (v : Value) : Option Draft := do
  match ← d.find? context name with
  | none => return d.store context name v
  | some _ =>
    let key := context ++ [name]
    if d.lists.contains key then return (d.confirm key).store context name v
    else if d.implied.contains key then return d.confirm key
    else none

/-- Makes sure that there are tables along a key. -/
def establish (d : Draft) (context : Key) : Key → Option Draft
  | [] => some d
  | name :: rest => do
    match ← d.find? context name with
    | none =>
      ((d.store context name (.table [])).imply (context ++ [name])).establish (context ++ [name])
        rest
    | some (.table _) => d.establish (context ++ [name]) rest
    | some (.tables _) => d.establish (context ++ [name]) rest
    | some _ => none

/-- Opens the table at a key, as a new element if it is an array of tables. -/
def openTable (d : Draft) (key : Key) (isElement : Bool) : Option Draft := do
  let context := key.dropLast
  let name := key.getLastD ""
  let d ← d.establish [] context
  if isElement then
    match ← d.find? context name with
    | none => return d.store context name (.tables [[]])
    | some (.tables elements) => return d.store context name (.tables (elements ++ [[]]))
    | some _ => none
  else d.give context name (.table [])

/-- Opens the tables that the names of a dotted key imply. -/
def openImplied (d : Draft) (context : Key) : Key → Option Draft
  | [] => some d
  | name :: rest => do
    let key := context ++ [name]
    let d ← (d.imply key).openTable key false
    d.openImplied key rest

/-- Lists a key. -/
def list (d : Draft) (key : Key) : Draft := { d with listed := d.listed ++ [key] }

end Draft

/-- Whether a value is written as a list. -/
def Expr.isList : Expr → Bool
  | .list _ => true
  | _ => false

mutual

/-- The value that an expression gives to a name.  Tables in it become part of the document at
once; those in a list are elements, until the list takes their place. -/
def evaluate (d : Draft) (context : Key) (name : String) (inList : Bool) :
    Expr → Option (Value × Draft)
  | .scalar v => some (v, d)
  | .list items =>
    match evaluateItems (d.note context name true) context name items with
    | some (vs, d) => some (.list vs, d)
    | none => none
  | .table entries =>
    let key := context ++ [name]
    match (d.imply key).openTable key inList with
    | none => none
    | some d =>
      match evaluateEntries d key entries with
      | some (es, d) => some (.table es, d)
      | none => none

def evaluateItems (d : Draft) (context : Key) (name : String) :
    List Expr → Option (List Value × Draft)
  | [] => some ([], d)
  | e :: rest =>
    match evaluate d context name true e with
    | none => none
    | some (v, d) =>
      match evaluateItems d context name rest with
      | some (vs, d) => some (v :: vs, d)
      | none => none

/-- Assigns entries in the table at a key. -/
def evaluateEntries (d : Draft) (context : Key) :
    List (Key × Expr) → Option (Table × Draft)
  | [] => some ([], d)
  | (key, e) :: rest =>
    match d.openImplied context key.dropLast with
    | none => none
    | some d =>
      let inner := context ++ key.dropLast
      let name := key.getLastD ""
      match evaluate (d.list (inner ++ [name])) inner name false e with
      | none => none
      | some (v, d) =>
        match d.give inner name v with
        | none => none
        | some d =>
          match evaluateEntries (d.note inner name e.isList) context rest with
          | some (es, d) => some (if (es.lookup name).isSome then es else (name, v) :: es, d)
          | none => none

end

/-- Carries out a statement; the key is that of the table at hand. -/
def Draft.carryOut (d : Draft) (context : Key) : Statement → Option (Key × Draft)
  | .table key => (d.openTable key false).map fun d => (key, (d.note key "" false).list key)
  | .element key => (d.openTable key true).map fun d => (key, (d.note key "" false).list key)
  | .assign key e => (evaluateEntries d context [(key, e)]).map fun (_, d) => (context, d)

def Draft.carryOutAll (d : Draft) (context : Key) : List Statement → Option Draft
  | [] => some d
  | s :: rest =>
    match d.carryOut context s with
    | some (context, d) => d.carryOutAll context rest
    | none => none

/-- A document: its root table, and its keys in the order of the file. -/
structure Document where
  root : Table
  keys : List Key

def read? (bytes : List UInt8) : Option Document :=
  match statements? bytes with
  | some statements => (Draft.carryOutAll {} [] statements).map fun d => ⟨d.root, d.listed⟩
  | none => none

end ShaderScript.Toml
