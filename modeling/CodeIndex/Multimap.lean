import Std.Data.ExtTreeMap
import Std.Data.ExtTreeSet

/-!
Contract: maps from a name to a set of names.

Owns:
- `Multimap`: no name is kept with an empty set;
- `Multimap.values`, `Multimap.add`, `Multimap.drop`, `Multimap.collect`.
-/

set_option autoImplicit false

namespace CodeIndex

/-- A set of names for each name. -/
abbrev Multimap : Type := Std.ExtTreeMap String (Std.ExtTreeSet String)

namespace Multimap

/-- The names under a name. -/
def values (map : Multimap) (key : String) : Std.ExtTreeSet String :=
  map.getD key ∅

def add (map : Multimap) (key value : String) : Multimap :=
  map.insert key ((map.values key).insert value)

/-- Takes out a name, and the key with the last of its names. -/
def drop (map : Multimap) (key value : String) : Multimap :=
  match map[key]? with
  | some set =>
      let rest := set.erase value
      if rest.isEmpty then map.erase key else map.insert key rest
  | none => map

/-- The names under any of several names. -/
def collect (map : Multimap) (keys : List String) : Std.ExtTreeSet String :=
  Std.ExtTreeSet.ofList (keys.flatMap fun key => (map.values key).toList)

/-- The number of pairs. -/
def pairCount (map : Multimap) : Nat :=
  map.toList.foldl (fun count entry => count + entry.2.size) 0

end Multimap

end CodeIndex
