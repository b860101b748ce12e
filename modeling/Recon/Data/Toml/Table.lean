import Recon.Data.Value

/-!
# Tables of TOML

A table knows how it came about, because that decides what may be added to it: one with a header of
its own may not get another, one that stands behind a dotted name may only be added to by dotted
names, and one that is merely on the way to another may still get its header.
-/

namespace Recon.Data.Toml

inductive Origin where
  | explicit
  /-- It is on the way to the table of a header. -/
  | path
  /-- It is on the way to the value of a dotted name. -/
  | dotted
deriving DecidableEq, Repr

mutual

inductive Item where
  | value (v : Value)
  | table (t : Table)
  | tables (last : Table) (earlier : List Table)

inductive Table where
  | mk (origin : Origin) (entries : List (String × Item))

end

def Table.origin : Table → Origin
  | .mk o _ => o

def Table.entries : Table → List (String × Item)
  | .mk _ es => es

def Table.empty (o : Origin) : Table := .mk o []

def Table.get? (t : Table) (name : String) : Option Item :=
  (t.entries.find? fun e => e.1 == name).map (·.2)

def Table.put (t : Table) (name : String) (i : Item) : Table :=
  if t.entries.any fun e => e.1 == name then
    .mk t.origin (t.entries.map fun e => if e.1 == name then (name, i) else e)
  else .mk t.origin (t.entries ++ [(name, i)])

def Table.erase (t : Table) (name : String) : Table :=
  .mk t.origin (t.entries.filter fun e => e.1 != name)

/-- Changes the table at the end of a path.  Missing tables on the way are made with the given
origin; a dotted path leads through no table that has a header of its own. -/
def Table.under (o : Origin) (change : Table → Option Table) : List String → Table → Option Table
  | [], t => change t
  | name :: path, t =>
    match t.get? name with
    | none => (under o change path (.empty o)).map fun u => t.put name (.table u)
    | some (.value _) => none
    | some (.tables last earlier) =>
      (under o change path last).map fun u => t.put name (.tables u earlier)
    | some (.table u) =>
      if o = .dotted ∧ u.origin = .explicit then none
      else (under o change path u).map fun u => t.put name (.table u)

/-- Adds a value under a dotted name.  The name must be new, and a table that stands behind dotted
names takes new names from these alone. -/
def Table.insert (t : Table) (path : List String) (name : String) (v : Value) : Option Table :=
  t.under .dotted
    (fun u =>
      -- an open table takes plain names, one behind dots takes names behind dots
      if (u.origin = .dotted) = (path = []) then none
      else if (u.get? name).isSome then none
      else some (u.put name (.value v)))
    path

mutual

def Item.toValue : Item → Value
  | .value v => v
  | .table t => t.toValue
  | .tables last earlier => .array (toValues earlier [last.toValue])

def Table.toValue : Table → Value
  | .mk _ es => .object (toFields es)

def toValues : List Table → List Value → List Value
  | [], vs => vs
  | t :: ts, vs => toValues ts (t.toValue :: vs)

def toFields : List (String × Item) → List (Option String × Value)
  | [] => []
  | (name, i) :: es => (some name, i.toValue) :: toFields es

end

def Table.at? : List String → Table → Option Table
  | [], t => some t
  | name :: path, t =>
    match t.get? name with
    | some (.table u) => at? path u
    | some (.tables last _) => at? path last
    | _ => none

/-- The header of a table: where the table stands, its name, and whether the header is a double one,
under which there may be many tables. -/
structure Header where
  path : List String
  name : String
  double : Bool
deriving DecidableEq, Repr

/-- A document in the making: the tables that are finished, and the one that is open with its
header. The open table has no header before the first one. -/
structure Draft where
  root : Table
  header : Option Header
  current : Table

def Draft.start : Draft := ⟨.empty .explicit, none, .empty .explicit⟩

def Draft.close (d : Draft) : Option Table :=
  match d.header with
  | none => some d.current
  | some h =>
    d.root.under .path
      (fun parent =>
        match h.double, parent.get? h.name with
        | _, none =>
          some (parent.put h.name (if h.double then .tables d.current [] else .table d.current))
        | true, some (.tables last earlier) =>
          some (parent.put h.name (.tables d.current (last :: earlier)))
        | _, some _ => none)
      h.path

/-- Opens the table of a header.  A single header is for a new table or for one that was merely on
the way to another; a double header for a new list of tables or for one made by such headers. -/
def Draft.open? (d : Draft) (h : Header) : Option Draft :=
  match d.close with
  | none => none
  | some root =>
    let found := (root.at? h.path).bind fun parent => parent.get? h.name
    match h.double, found with
    | _, none => (root.under .path some h.path).map fun root => ⟨root, some h, .empty .explicit⟩
    | true, some (.tables _ _) => some ⟨root, some h, .empty .explicit⟩
    | false, some (.table t) =>
      if t.origin = .path then
        (root.under .path (fun parent => some (parent.erase h.name)) h.path).map fun root =>
          ⟨root, some h, .mk .explicit t.entries⟩
      else none
    | _, some _ => none

def Draft.insert (d : Draft) (path : List String) (name : String) (v : Value) : Option Draft :=
  (d.current.insert path name v).map fun t => { d with current := t }

end Recon.Data.Toml
