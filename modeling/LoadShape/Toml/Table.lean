import LoadShape.Toml.Statement

/-!
# Tables from statements

What the statements of a document add up to.  A key is given a value only once, and
a table is opened by one header only; but a table that was only a parent so far may
be opened later, and then stands where it was opened.
-/

namespace LoadShape.Toml

/-- How a table came into being. -/
inductive TableKind where
  /-- It was opened by a header. -/
  | opened
  /-- It is the parent of a table that was opened by a header. -/
  | implied
  /-- It is the parent of a key in an assignment. -/
  | dotted
  deriving DecidableEq, Repr

/-- An entry of a table under construction. -/
inductive Node where
  /-- A value that was assigned. -/
  | leaf (value : Value)
  | table (kind : TableKind) (entries : List (String × Node))
  /-- An array of tables that were opened by headers. -/
  | tables (items : List (List (String × Node)))

/-- The entries of a table under construction. -/
abbrev Nodes := List (String × Node)

mutual

/-- The value of a finished entry. -/
def Node.value : Node → Value
  | .leaf value => value
  | .table _ entries => .table (Node.values entries)
  | .tables items => .array (Node.arrayItems items)

/-- The values of finished entries. -/
def Node.values : List (String × Node) → Entries
  | [] => []
  | (key, node) :: entries => (key, node.value) :: Node.values entries

/-- The tables of a finished array. -/
def Node.arrayItems : List (List (String × Node)) → List Value
  | [] => []
  | entries :: items => .table (Node.values entries) :: Node.arrayItems items

end

namespace Nodes

/-- The entry of the key, if there is one. -/
def find? (nodes : Nodes) (key : String) : Option Node := nodes.lookup key

/-- The entries with another one in place of that of the key. -/
def replace (nodes : Nodes) (key : String) (node : Node) : Nodes :=
  nodes.map fun entry => if entry.1 = key then (key, node) else entry

/-- The entries without that of the key. -/
def erase (nodes : Nodes) (key : String) : Nodes := nodes.filter (·.1 ≠ key)

/-- The entries with one more at the end. -/
def append (nodes : Nodes) (key : String) (node : Node) : Nodes := nodes ++ [(key, node)]

/-- The last of the tables changed. -/
def changeLast? (change? : Nodes → Option Nodes) (items : List Nodes) : Option (List Nodes) := do
  let last ← items.getLast?
  let changed ← change? last
  return items.dropLast ++ [changed]

/-- The entries with a value for the key under the given parents.  Parents must be
tables, which a header has not opened, and the nearest one must come from an
assignment as well. -/
def assign? (key : String) (value : Value) : (path : List String) → Nodes → Option Nodes
  | [], nodes =>
    match nodes.find? key with
    | none => some (nodes.append key (.leaf value))
    | some _ => none
  | parent :: path, nodes =>
    match nodes.find? parent with
    | none => do
      let inner ← assign? key value path []
      return nodes.append parent (.table .dotted inner)
    | some (.table kind inner) =>
      if kind = .opened ∨ (path = [] ∧ kind ≠ .dotted) then none
      else do
        let inner ← assign? key value path inner
        return nodes.replace parent (.table kind inner)
    | some (.tables items) =>
      if path = [] then none
      else do
        let items ← changeLast? (assign? key value path) items
        return nodes.replace parent (.tables items)
    | some (.leaf _) => none

/-- The entries with all of the assignments, in turn. -/
def assignAll? (nodes : Nodes) (assignments : List Assignment) : Option Nodes :=
  assignments.foldlM (fun nodes a => assign? a.key a.value a.path nodes) nodes

/-- The entries with a table opened for the key; `assignments` fill it. -/
def openTable? (key : String) (assignments : List Assignment) (nodes : Nodes) : Option Nodes :=
  match nodes.find? key with
  | none => do
    let body ← assignAll? [] assignments
    return nodes.append key (.table .opened body)
  | some (.table .implied inner) => do
    let body ← assignAll? inner assignments
    return (nodes.erase key).append key (.table .opened body)
  | some _ => none

/-- The entries with one more table in the array of the key; `assignments` fill it. -/
def openItem? (key : String) (assignments : List Assignment) (nodes : Nodes) : Option Nodes :=
  match nodes.find? key with
  | none => do
    let body ← assignAll? [] assignments
    return nodes.append key (.tables [body])
  | some (.tables items) => do
    let body ← assignAll? [] assignments
    return nodes.replace key (.tables (items ++ [body]))
  | some _ => none

/-- The entries changed under the given parents, the last one of each array. -/
def under? (change? : Nodes → Option Nodes) : (path : List String) → Nodes → Option Nodes
  | [], nodes => change? nodes
  | parent :: path, nodes =>
    match nodes.find? parent with
    | none => do
      let inner ← under? change? path []
      return nodes.append parent (.table .implied inner)
    | some (.table kind inner) => do
      let inner ← under? change? path inner
      return nodes.replace parent (.table kind inner)
    | some (.tables items) => do
      let items ← changeLast? (under? change? path) items
      return nodes.replace parent (.tables items)
    | some (.leaf _) => none

/-- The entries with what a header opens. -/
def openHeader? (nodes : Nodes) (header : Header) (assignments : List Assignment) :
    Option Nodes :=
  let change? :=
    if header.inArray then openItem? header.key assignments
    else openTable? header.key assignments
  under? change? header.path nodes

end Nodes

/-- A header with the assignments that follow it. -/
structure Section where
  header : Header
  assignments : List Assignment

/-- The assignments before the first header, and the sections after them. -/
def sections : List Statement → List Assignment × List Section
  | [] => ([], [])
  | .assign assignment :: statements =>
    let (leading, rest) := sections statements
    (assignment :: leading, rest)
  | .header header :: statements =>
    let (leading, rest) := sections statements
    ([], ⟨header, leading⟩ :: rest)

/-- The table that the assignments add up to. -/
def tableOf? (assignments : List Assignment) : Option Entries :=
  (Nodes.assignAll? [] assignments).map Node.values

/-- The table that the statements of a document add up to. -/
def documentOf? (statements : List Statement) : Option Entries := do
  let (leading, rest) := sections statements
  let root ← Nodes.assignAll? [] leading
  let nodes ← rest.foldlM (fun nodes s => nodes.openHeader? s.header s.assignments) root
  return Node.values nodes

end LoadShape.Toml
