/-!
# Configuration documents

The values of a configuration document, and the rules by which its lines fill tables. A table
remembers how it came to be, because that decides what may still be added to it: a table with a
header of its own is closed to a second header and to dotted keys from outside, one that was only
implied by a longer header may still get its header, and one that dotted keys made grows by dotted
keys alone.
-/

set_option autoImplicit false

namespace ResourceQuery

/-- A value of a document. -/
inductive Toml
  | string (value : String)
  | integer (value : Int)
  | float (value : Float)
  | boolean (value : Bool)
  /-- A date, a time of day, or both. -/
  | moment (text : String)
  | array (items : List Toml)
  | table (fields : List (String × Toml))

namespace Toml

def field? (name : String) : Toml → Option Toml
  | .table fields => fields.lookup name
  | _ => none

/-- A table under construction, with entries of type `ν`. -/
structure Table (ν : Type) where
  /-- No header names it; a longer header or a dotted key does. -/
  implied : Bool
  /-- Dotted keys made it. -/
  dotted : Bool
  fields : List (String × ν)

/-- An entry of a table under construction. -/
inductive Node
  | value (done : Toml)
  | table (content : Table Node)
  /-- Tables of one name, of which the last is still open. -/
  | tables (closed : List (Table Node)) (last : Table Node)

namespace Table

def find? (table : Table Node) (key : String) : Option Node := table.fields.lookup key

/-- The table with an entry under a key, in place of the one that was there. -/
def set (table : Table Node) (key : String) (node : Node) : Table Node :=
  if (table.find? key).isSome then
    { table with
      fields := table.fields.map fun field => if field.1 = key then (key, node) else field }
  else { table with fields := table.fields ++ [(key, node)] }

/-- Edits the table that a row of keys leads to. Keys that are missing make implied tables; a key
of several tables leads to the last of them. Dotted keys do not lead into a table with a header. -/
def edit (dotted : Bool) (change : Table Node → Option (Table Node)) :
    List String → Table Node → Option (Table Node)
  | [], target => change target
  | key :: rest, target =>
    match target.find? key with
    -- A key that is missing makes a table that no header names.
    | none =>
      (edit dotted change rest ⟨true, dotted, []⟩).map fun child => target.set key (.table child)
    | some (.value _) => none
    | some (.tables closed last) =>
      (edit dotted change rest last).map fun child => target.set key (.tables closed child)
    | some (.table child) =>
      -- Dotted keys do not lead into a table that has a header.
      if dotted && !child.implied then none
      else (edit dotted change rest child).map fun child => target.set key (.table child)

/-- Adds a value under a key that may be dotted. The last key must be new. Under a plain key the
table must not be one that dotted keys made, under a dotted key it must be. -/
def assign (path : List String) (key : String) (value : Toml) (table : Table Node) :
    Option (Table Node) :=
  edit true
    (fun target =>
      if target.dotted == path.isEmpty then none
      else if (target.find? key).isSome then none
      else some (target.set key (.value value)))
    path table

/-- Opens the table that a header names: a new one, or one that was only implied. -/
def openTable (path : List String) (key : String) (table : Table Node) : Option (Table Node) :=
  edit false
    (fun parent =>
      match parent.find? key with
      | none => some (parent.set key (.table ⟨false, false, []⟩))
      | some (.table child) =>
        if child.implied && !child.dotted then
          some (parent.set key (.table ⟨false, false, child.fields⟩))
        else none
      | some _ => none)
    path table

/-- Opens one more of the tables that a header in double brackets names. -/
def openNext (path : List String) (key : String) (table : Table Node) : Option (Table Node) :=
  edit false
    (fun parent =>
      match parent.find? key with
      | none => some (parent.set key (.tables [] ⟨false, false, []⟩))
      | some (.tables closed last) =>
        some (parent.set key (.tables (closed ++ [last]) ⟨false, false, []⟩))
      | some _ => none)
    path table

end Table

mutual

def Node.toToml : Node → Toml
  | .value done => done
  | .table content => Table.toToml content
  | .tables closed last => .array (Table.allToToml closed ++ [Table.toToml last])

def Table.toToml : Table Node → Toml
  | ⟨_, _, fields⟩ => .table (Node.fieldsToToml fields)

def Table.allToToml : List (Table Node) → List Toml
  | [] => []
  | first :: rest => Table.toToml first :: Table.allToToml rest

def Node.fieldsToToml : List (String × Node) → List (String × Toml)
  | [] => []
  | (key, node) :: rest => (key, node.toToml) :: Node.fieldsToToml rest

end

end Toml

end ResourceQuery
