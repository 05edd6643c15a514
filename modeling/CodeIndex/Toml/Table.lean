import CodeIndex.Toml.Basic

/-!
Contract: tables put together piece by piece.

Owns:
- `Toml.Node`: a table under construction, with where it came from;
- `Toml.insertPair?`: a value under a dotted key;
- `Toml.openTable?`, `Toml.openElement?`: a table or a further element of a row of tables.

No name may be given twice. A table may be opened by a header once, also after tables in it were
opened; dotted keys add only to tables that dotted keys have made.
-/

set_option autoImplicit false

namespace CodeIndex.Toml

/-- How a table came to be. -/
inductive Origin where
  | header
  /-- On the way to a table with a header. -/
  | implied
  /-- By a dotted key. -/
  | dotted
  deriving DecidableEq, Repr

/-- A value or a table under construction. -/
inductive Node where
  | value (value : Toml)
  | table (origin : Origin) (members : List (String × Node))
  /-- A row of tables; the last one is open. -/
  | row (finished : List (List (String × Node))) (current : List (String × Node))

/-- Names with values or tables under construction. -/
abbrev Members : Type := List (String × Node)

/-- Puts a node in place of the one with a name. -/
def replaceMember (name : String) (node : Node) (members : Members) : Members :=
  members.map fun member => if member.1 == name then (name, node) else member

/-- Changes the table at the end of a path, given how it came to be. Tables that are missing on the
way are made. -/
def changeAt? (origin : Origin) (change : Origin → Members → Option Members) :
    List String → Origin → Members → Option Members
  | [], reached, members => change reached members
  | name :: path, _, members =>
      match members.lookup name with
      | none =>
          (changeAt? origin change path origin []).map fun inner =>
            members ++ [(name, .table origin inner)]
      | some (.value _) => none
      | some (.table made inner) =>
          if origin = .dotted ∧ made = .header then
            none
          else
            (changeAt? origin change path made inner).map fun changed =>
              replaceMember name (.table made changed) members
      | some (.row finished current) =>
          (changeAt? origin change path .header current).map fun changed =>
            replaceMember name (.row finished changed) members

/-- Adds a value under a name that is not taken. -/
def addMember? (name : String) (value : Toml) (members : Members) : Option Members :=
  match members.lookup name with
  | none => some (members ++ [(name, .value value)])
  | some _ => none

/-- Adds a value under a dotted key. -/
def insertPair? (key : List String) (value : Toml) (members : Members) : Option Members :=
  match key.reverse with
  | [] => none
  | [name] => addMember? name value members
  | name :: above =>
      changeAt? .dotted
        (fun reached inner => if reached = .dotted then addMember? name value inner else none)
        above.reverse .header members

/-- Opens the table of a header. -/
def openTable? (key : List String) (members : Members) : Option Members :=
  match key.reverse with
  | [] => none
  | name :: above =>
      changeAt? .implied
        (fun _ inner =>
          match inner.lookup name with
          | none => some (inner ++ [(name, .table .header [])])
          | some (.table .implied known) =>
              some (replaceMember name (.table .header known) inner)
          | some _ => none)
        above.reverse .header members

/-- Opens a further element of a row of tables. -/
def openElement? (key : List String) (members : Members) : Option Members :=
  match key.reverse with
  | [] => none
  | name :: above =>
      changeAt? .implied
        (fun _ inner =>
          match inner.lookup name with
          | none => some (inner ++ [(name, .row [] [])])
          | some (.row finished current) =>
              some (replaceMember name (.row (finished ++ [current]) []) inner)
          | some _ => none)
        above.reverse .header members

/-- Adds a value under a dotted key to the table that was opened last. -/
def insertWithin? (opened key : List String) (value : Toml) (members : Members) :
    Option Members :=
  changeAt? .implied (fun _ inner => insertPair? key value inner) opened .header members

mutual

/-- The value of a node. -/
def Node.finish : Node → Toml
  | .value value => value
  | .table _ members => .table (finishMembers members)
  | .row finished current =>
      .array (finishRow finished ++ [.table (finishMembers current)])

/-- The values of members. -/
def finishMembers : List (String × Node) → List (String × Toml)
  | [] => []
  | (name, node) :: rest => (name, node.finish) :: finishMembers rest

/-- The values of a row of tables. -/
def finishRow : List (List (String × Node)) → List Toml
  | [] => []
  | members :: rest => .table (finishMembers members) :: finishRow rest

end

end CodeIndex.Toml
