import CodeIndex.Source.Tree

/-!
Contract: the order in which a walk through a syntax tree comes to its nodes.

Owns:
- `Tree.nodeAt?`: nodes by the positions that lead to them;
- `Tree.IsWalk`: a listing of all nodes, each before its parts, and the parts from left to right;
- `Tree.walk`, `Tree.isWalk_walk`: the walk that visits a node and then its parts is such a listing.

Bare tokens are passed over, with all that might be under them; positions count the other children.
-/

set_option autoImplicit false

namespace CodeIndex.Source.Tree

/-- The node that positions lead to, each among the children of the node before it. -/
def nodeAt? (tree : Tree) : List Nat → Option Tree
  | [] => some tree
  | position :: rest => tree.namedChildren[position]?.bind (nodeAt? · rest)

/-- A listing of all nodes of a tree with the positions that lead to them. Their lexicographic order
puts a node before its parts, and all that is in a part before the next part. -/
structure IsWalk (tree : Tree) (visits : List (List Nat × Tree)) : Prop where
  ordered : visits.Pairwise fun earlier later => List.Lex (· < ·) earlier.1 later.1
  complete : ∀ address node, (address, node) ∈ visits ↔ tree.nodeAt? address = some node

/-- A visit to a node of the child at a position. -/
def visitIn (position : Nat) (visit : List Nat × Tree) : List Nat × Tree :=
  (position :: visit.1, visit.2)

mutual

/-- The visits to a node and then to its parts. -/
def walk : Tree → List (List Nat × Tree)
  | ⟨role, kind, span, text, children⟩ =>
      ([], ⟨role, kind, span, text, children⟩) :: walkAll 0 children

/-- The visits to nodes that are no bare tokens, from left to right. -/
def walkAll (position : Nat) : List Tree → List (List Nat × Tree)
  | [] => []
  | child :: rest =>
      if child.isNamed then (walk child).map (visitIn position) ++ walkAll (position + 1) rest
      else walkAll position rest

end

theorem walk_eq (tree : Tree) : walk tree = ([], tree) :: walkAll 0 tree.children := by
  cases tree
  rw [walk]

theorem walkAll_cons_of_isNamed {child : Tree} (named : child.isNamed = true) (position : Nat)
    (rest : List Tree) :
    walkAll position (child :: rest) =
      (walk child).map (visitIn position) ++ walkAll (position + 1) rest := by
  rw [walkAll, if_pos named]

theorem walkAll_cons_of_token {child : Tree} (token : ¬ child.isNamed = true) (position : Nat)
    (rest : List Tree) : walkAll position (child :: rest) = walkAll position rest := by
  rw [walkAll, if_neg token]

/-! ## All nodes are visited -/

theorem mem_map_visitIn (position : Nat) (visits : List (List Nat × Tree)) (address : List Nat)
    (node : Tree) :
    (address, node) ∈ visits.map (visitIn position) ↔
      ∃ rest, address = position :: rest ∧ (rest, node) ∈ visits := by
  rw [List.mem_map]
  constructor
  · intro listed
    obtain ⟨⟨rest, other⟩, member, same⟩ := listed
    obtain ⟨rfl, rfl⟩ := Prod.mk.inj same
    exact ⟨rest, rfl, member⟩
  · intro listed
    obtain ⟨rest, rfl, member⟩ := listed
    exact ⟨(rest, node), member, rfl⟩

mutual

theorem mem_walk (tree : Tree) (address : List Nat) (node : Tree) :
    (address, node) ∈ walk tree ↔ tree.nodeAt? address = some node := by
  obtain ⟨role, kind, span, text, children⟩ := tree
  rw [walk_eq, List.mem_cons, mem_walkAll children 0 address node]
  cases address with
  | nil => simp [nodeAt?, eq_comm]
  | cons position rest =>
      rw [nodeAt?, Option.bind_eq_some_iff]
      constructor
      · intro visited
        rcases visited with root | ⟨_, _, same, child, found, below⟩
        · exact absurd root (by simp)
        · obtain ⟨rfl, rfl⟩ := List.cons.inj same
          rw [Nat.zero_add]
          exact ⟨child, found, below⟩
      · intro reached
        obtain ⟨child, found, below⟩ := reached
        exact .inr ⟨position, rest, by rw [Nat.zero_add], child, found, below⟩

theorem mem_walkAll (nodes : List Tree) (start : Nat) (address : List Nat) (node : Tree) :
    (address, node) ∈ walkAll start nodes ↔
      ∃ position rest, address = (start + position) :: rest ∧
        ∃ child, (nodes.filter isNamed)[position]? = some child ∧
          child.nodeAt? rest = some node := by
  cases nodes with
  | nil => simp [walkAll]
  | cons first others =>
      by_cases named : first.isNamed = true
      · rw [walkAll_cons_of_isNamed named, List.mem_append, mem_map_visitIn,
          List.filter_cons_of_pos named, mem_walkAll others (start + 1) address node]
        constructor
        · intro visited
          rcases visited with ⟨rest, rfl, inside⟩ | ⟨position, rest, rfl, child, found, below⟩
          · exact ⟨0, rest, rfl, first, rfl, (mem_walk first rest node).mp inside⟩
          · refine ⟨position + 1, rest, ?_, child, found, below⟩
            rw [Nat.add_assoc, Nat.add_comm 1]
        · intro reached
          obtain ⟨position, rest, rfl, child, found, below⟩ := reached
          cases position with
          | zero =>
              cases Option.some.inj found
              exact .inl ⟨rest, rfl, (mem_walk first rest node).mpr below⟩
          | succ before =>
              refine .inr ⟨before, rest, ?_, child, found, below⟩
              rw [Nat.add_assoc, Nat.add_comm 1]
      · rw [walkAll_cons_of_token named, List.filter_cons_of_neg named]
        exact mem_walkAll others start address node

end

/-! ## The order of visits -/

theorem pairwise_map_visitIn (position : Nat) {visits : List (List Nat × Tree)}
    (ordered : visits.Pairwise fun earlier later => List.Lex (· < ·) earlier.1 later.1) :
    (visits.map (visitIn position)).Pairwise
      fun earlier later => List.Lex (· < ·) earlier.1 later.1 := by
  rw [List.pairwise_map]
  exact ordered.imp List.Lex.cons

mutual

theorem pairwise_walk (tree : Tree) :
    (walk tree).Pairwise fun earlier later => List.Lex (· < ·) earlier.1 later.1 := by
  obtain ⟨role, kind, span, text, children⟩ := tree
  rw [walk_eq, List.pairwise_cons]
  refine ⟨?_, pairwise_walkAll children 0⟩
  intro visit visited
  obtain ⟨position, rest, same, _⟩ := (mem_walkAll children 0 visit.1 visit.2).mp visited
  rw [same]
  exact .nil

theorem pairwise_walkAll (nodes : List Tree) (start : Nat) :
    (walkAll start nodes).Pairwise fun earlier later => List.Lex (· < ·) earlier.1 later.1 := by
  cases nodes with
  | nil =>
      rw [walkAll]
      exact .nil
  | cons first others =>
      by_cases named : first.isNamed = true
      · rw [walkAll_cons_of_isNamed named, List.pairwise_append]
        refine ⟨pairwise_map_visitIn start (pairwise_walk first),
          pairwise_walkAll others (start + 1), ?_⟩
        -- All positions after the first child are greater than its own.
        intro earlier inFirst later inOthers
        obtain ⟨below, earlierAt, _⟩ := (mem_map_visitIn start _ earlier.1 earlier.2).mp inFirst
        obtain ⟨position, rest, laterAt, _⟩ :=
          (mem_walkAll others (start + 1) later.1 later.2).mp inOthers
        rw [earlierAt, laterAt]
        exact .rel (by omega)
      · rw [walkAll_cons_of_token named]
        exact pairwise_walkAll others start

end

theorem isWalk_walk (tree : Tree) : IsWalk tree (walk tree) where
  ordered := pairwise_walk tree
  complete := mem_walk tree

end CodeIndex.Source.Tree
