import PackageTrial.Toml.Value

/-!
# Tables under construction

A document mentions a table in pieces: by headers, by dotted keys, or as one value. `Node` remembers
how a table came about, since that decides what may still be added to it. A header may complete a
table that only longer headers have passed through, a dotted key a table that dotted keys have
begun; nothing adds to a table that stands as a value.
-/

namespace PackageTrial.Toml

/-- How a table came about. -/
inductive Origin
  /-- A longer header passed through it. -/
  | passed
  /-- A dotted key leads into it. -/
  | dotted
  /-- A header names it. -/
  | declared
  deriving DecidableEq

/-- A value or a table under construction. -/
inductive Node
  | leaf (value : Value)
  | table (origin : Origin) (members : List (String × Node))
  /-- Tables of one name, the latest first. -/
  | tables (items : List (List (String × Node)))

/-- The members of a table under construction. -/
abbrev Members := List (String × Node)

namespace Members

/-- The member of a name. -/
def find? (ms : Members) (key : String) : Option Node :=
  (List.find? (·.1 = key) ms).map (·.2)

/-- Adds a member, or puts another in its place. -/
def put (ms : Members) (key : String) (node : Node) : Members :=
  if (ms.find? key).isSome then ms.map fun m => if m.1 = key then (key, node) else m
  else ms ++ [(key, node)]

/-- Changes the table to which the path of a header leads, which may go through the latest of
several tables. -/
def atPath (change : Members → Option Members) : List String → Members → Option Members
  | [], ms => change ms
  | key :: path, ms =>
    match ms.find? key with
    | none => do return ms.put key (.table .passed (← atPath change path []))
    | some (.table origin inner) => do
      return ms.put key (.table origin (← atPath change path inner))
    | some (.tables (latest :: earlier)) => do
      return ms.put key (.tables ((← atPath change path latest) :: earlier))
    | some _ => none

/-- Declares a table by its header. -/
def declare (key : String) (ms : Members) : Option Members :=
  match ms.find? key with
  | none => some (ms.put key (.table .declared []))
  | some (.table .passed inner) => some (ms.put key (.table .declared inner))
  | some _ => none

/-- Begins one more of several tables of a name. -/
def begin (key : String) (ms : Members) : Option Members :=
  match ms.find? key with
  | none => some (ms.put key (.tables [[]]))
  | some (.tables items) => some (ms.put key (.tables ([] :: items)))
  | some _ => none

/-- Gives a value to a dotted key. The table that directly holds the value is reached by dotted
keys alone. -/
def assign (value : Value) : List String → Members → Option Members
  | [], _ => none
  | [key], ms => if (ms.find? key).isSome then none else some (ms.put key (.leaf value))
  | key :: next :: path, ms =>
    match ms.find? key with
    | none => do return ms.put key (.table .dotted (← assign value (next :: path) []))
    | some (.table .dotted inner) => do
      return ms.put key (.table .dotted (← assign value (next :: path) inner))
    | some (.table .passed inner) => do
      if path = [] then none
      else return ms.put key (.table .passed (← assign value (next :: path) inner))
    | some (.tables (latest :: earlier)) => do
      if path = [] then none
      else return ms.put key (.tables ((← assign value (next :: path) latest) :: earlier))
    | some _ => none

end Members

mutual

/-- The finished value of a node. -/
def Node.value : Node → Value
  | .leaf value => value
  | .table _ members => .table (membersValue members)
  | .tables items => .array (tablesValue items).reverse

/-- The finished values of the members of a table. -/
def membersValue : List (String × Node) → List (String × Value)
  | [] => []
  | (key, node) :: rest => (key, node.value) :: membersValue rest

/-- The finished values of several tables. -/
def tablesValue : List (List (String × Node)) → List Value
  | [] => []
  | members :: rest => .table (membersValue members) :: tablesValue rest

end

end PackageTrial.Toml
