import CodeIndex.Proofs.Search
import CodeIndex.Search.Rank

/-!
Contract: the places of a term are the chunks that have it, after every change.

Owns:
- `Search.placesFrom`: the places of a term, read off the chunks;
- `Search.Index.Posted`: an index keeps just these places;
- `Search.Index.Fresh`: the weights that an index keeps are those of its chunks;
- `Search.Index.run_posts_chunks`: what follows for every run, up to what a search looks at.

Does not own: scores. They are numbers with rounding, and nothing here depends on their values.

Taking out a file renumbers the chunks after it. The places of a term are moved through the table
`remap`, so the main lemma is `filterMap_placesFrom`: moving the places read off the old chunks
gives the places read off the chunks that stay. A run may be interrupted by searches, which leave
weights behind.
-/

set_option autoImplicit false

namespace CodeIndex.Search

/-! ## Distinct terms -/

theorem mem_distinctFrom (seen items : List String) (item : String) :
    item ∈ distinctFrom seen items ↔ item ∈ items ∧ ¬ item ∈ seen := by
  fun_induction distinctFrom seen items with
  | case1 => simp
  | case2 seen first rest known inductionHypothesis =>
      have firstSeen : first ∈ seen := by simpa using known
      rw [inductionHypothesis, List.mem_cons]
      constructor
      · exact fun both => ⟨.inr both.1, both.2⟩
      · rintro ⟨rfl | later, unseen⟩
        · exact absurd firstSeen unseen
        · exact ⟨later, unseen⟩
  | case3 seen first rest fresh inductionHypothesis =>
      have firstUnseen : ¬ first ∈ seen := by simpa using fresh
      rw [List.mem_cons, List.mem_cons, inductionHypothesis, List.mem_cons]
      by_cases same : item = first
      · simp [same, firstUnseen]
      · simp [same]

theorem nodup_distinctFrom (seen items : List String) : (distinctFrom seen items).Nodup := by
  fun_induction distinctFrom seen items with
  | case1 => exact List.nodup_nil
  | case2 seen first rest known inductionHypothesis => exact inductionHypothesis
  | case3 seen first rest fresh inductionHypothesis =>
      refine List.nodup_cons.mpr ⟨?_, inductionHypothesis⟩
      intro again
      exact ((mem_distinctFrom (first :: seen) rest first).mp again).2 List.mem_cons_self

/-- A chunk has no term twice. -/
theorem nodup_tokens_of_mem_chunksOf {record : Record} {chunk : Chunk}
    (member : chunk ∈ chunksOf record) : chunk.tokens.Nodup := by
  have ofSymbols : ∀ inner ∈ record.symbols.flatMap (chunksOfSymbol record.path),
      inner.tokens.Nodup := by
    intro inner inside
    obtain ⟨symbol, _, ofSymbol⟩ := List.mem_flatMap.mp inside
    rcases List.mem_cons.mp ofSymbol with rfl | ofMember
    · exact nodup_distinctFrom [] _
    · obtain ⟨method, _, rfl⟩ := List.mem_map.mp ofMember
      exact nodup_distinctFrom [] _
  unfold chunksOf at member
  split at member
  · rw [List.mem_singleton.mp member]
    exact nodup_distinctFrom [] _
  · exact ofSymbols chunk member

/-! ## Places of a term -/

/-- The places of a term in a row of chunks that starts at a given place. -/
def placesFrom (term : String) (next : Nat) : List Chunk → List Nat
  | [] => []
  | chunk :: rest =>
      if chunk.tokens.contains term then next :: placesFrom term (next + 1) rest
      else placesFrom term (next + 1) rest

theorem placesFrom_append (term : String) (next : Nat) (chunks more : List Chunk) :
    placesFrom term next (chunks ++ more) =
      placesFrom term next chunks ++ placesFrom term (next + chunks.length) more := by
  induction chunks generalizing next with
  | nil => rfl
  | cons first rest inductionHypothesis =>
      have shift : next + 1 + rest.length = next + (rest.length + 1) := by omega
      simp only [List.cons_append, placesFrom, inductionHypothesis, List.length_cons, shift]
      split <;> rfl

theorem mem_placesFrom (term : String) (next place : Nat) (chunks : List Chunk) :
    place ∈ placesFrom term next chunks ↔
      next ≤ place ∧ ∃ chunk, chunks[place - next]? = some chunk ∧ term ∈ chunk.tokens := by
  induction chunks generalizing next with
  | nil => simp [placesFrom]
  | cons first rest inductionHypothesis =>
      have here : place ∈ placesFrom term next (first :: rest) ↔
          (place = next ∧ term ∈ first.tokens) ∨ place ∈ placesFrom term (next + 1) rest := by
        rw [placesFrom]
        by_cases has : term ∈ first.tokens <;> simp [has]
      rw [here, inductionHypothesis]
      rcases Nat.lt_trichotomy place next with before | rfl | after
      · have away : ¬ next ≤ place := by omega
        have further : ¬ next + 1 ≤ place := by omega
        have different : ¬ place = next := by omega
        simp [away, further, different]
      · have further : ¬ place + 1 ≤ place := by omega
        simp [further]
      · have different : ¬ place = next := by omega
        have offset : place - next = place - (next + 1) + 1 := by omega
        have reached : next ≤ place ↔ next + 1 ≤ place := by omega
        simp [different, offset, reached]

theorem pairwise_placesFrom (term : String) (next : Nat) (chunks : List Chunk) :
    (placesFrom term next chunks).Pairwise (· < ·) := by
  induction chunks generalizing next with
  | nil => exact List.Pairwise.nil
  | cons first rest inductionHypothesis =>
      rw [placesFrom]
      split
      · refine List.pairwise_cons.mpr ⟨?_, inductionHypothesis (next + 1)⟩
        intro place later
        have bound := ((mem_placesFrom term (next + 1) place rest).mp later).1
        omega
      · exact inductionHypothesis (next + 1)

theorem length_placesFrom (term : String) (next : Nat) (chunks : List Chunk) :
    (placesFrom term next chunks).length =
      chunks.countP fun chunk => chunk.tokens.contains term := by
  induction chunks generalizing next with
  | nil => rfl
  | cons first rest inductionHypothesis =>
      rw [placesFrom, List.countP_cons]
      split
      · rw [List.length_cons, inductionHypothesis]
      · rw [inductionHypothesis, Nat.add_zero]

namespace Index

theorem length_remap (path : String) (next : Nat) (chunks : List Chunk) :
    (remap path next chunks).length = chunks.length := by
  induction chunks generalizing next with
  | nil => rfl
  | cons first rest inductionHypothesis =>
      rw [remap]
      split <;> rw [List.length_cons, inductionHypothesis, List.length_cons]

/-- Moving the places of a term, where the table is read from a place on, gives its places among the
chunks that stay. -/
theorem filterMap_placesFrom (path term : String) (chunks : List Chunk) (next kept : Nat)
    (moved : Nat → Option Nat)
    (agrees : ∀ offset, moved (next + offset) = ((remap path kept chunks)[offset]?).join) :
    (placesFrom term next chunks).filterMap moved =
      placesFrom term kept (chunks.filter fun chunk => chunk.path != path) := by
  induction chunks generalizing next kept with
  | nil => rfl
  | cons first rest inductionHypothesis =>
      have start := agrees 0
      have later : ∀ offset, moved (next + 1 + offset) =
          ((remap path kept (first :: rest))[offset + 1]?).join := by
        intro offset
        rw [← agrees (offset + 1)]
        congr 1
        omega
      by_cases gone : first.path = path
      · -- The table has no entry for this chunk, and the chunks after it close the gap.
        rw [remap, if_pos (by simpa using gone)] at start later
        have stays := inductionHypothesis (next + 1) kept later
        have nowhere : moved next = none := start
        rw [List.filter_cons_of_neg (by simpa using gone), ← stays, placesFrom]
        split
        · rw [List.filterMap_cons_none nowhere]
        · rfl
      · rw [remap, if_neg (by simpa using gone)] at start later
        have stays := inductionHypothesis (next + 1) (kept + 1) later
        have there : moved next = some kept := start
        rw [List.filter_cons_of_pos (by simpa using gone), placesFrom, placesFrom, ← stays]
        split
        · rw [List.filterMap_cons_some there]
        · rfl

theorem movePlaces_placesFrom (path term : String) (chunks : List Chunk) :
    movePlaces (remap path 0 chunks).toArray (placesFrom term 0 chunks) =
      placesFrom term 0 (chunks.filter fun chunk => chunk.path != path) := by
  apply filterMap_placesFrom
  intro offset
  rw [Nat.zero_add, List.getElem?_toArray]

/-! ## Kept places -/

/-- How a list of places is kept: not at all if it is empty. -/
def kept (places : List Nat) : Option (List Nat) :=
  if places = [] then none else some places

theorem getD_kept (places : List Nat) : (kept places).getD [] = places := by
  unfold kept
  split
  · next nothing => exact nothing.symm
  · rfl

/-- An index keeps the places of each term. -/
def Posted (index : Index) : Prop :=
  ∀ term : String, index.postings[term]? = kept (placesFrom term 0 index.chunks.toList)

/-- Adding a place to distinct terms adds it once to each. -/
theorem getElem?_foldl_addPlace (place : Nat) (terms : List String) (distinct : terms.Nodup)
    (postings : Std.ExtTreeMap String (List Nat)) (term : String) :
    (terms.foldl (fun postings term => addPlace postings place term) postings)[term]? =
      if term ∈ terms then some (postings.getD term [] ++ [place]) else postings[term]? := by
  induction terms generalizing postings with
  | nil => simp
  | cons first rest inductionHypothesis =>
      obtain ⟨once, distinctRest⟩ := List.nodup_cons.mp distinct
      rw [List.foldl_cons, inductionHypothesis distinctRest]
      by_cases same : first = term
      · subst same
        rw [if_neg once, if_pos List.mem_cons_self, addPlace, Std.ExtTreeMap.getElem?_insert_self]
      · have differ : ¬ term = first := fun equal => same equal.symm
        simp [addPlace, Std.ExtTreeMap.getD_insert, Std.ExtTreeMap.getElem?_insert, same, differ]

namespace Posted

variable {index : Index}

theorem empty (stopWordWeight : Float) (fingerprints : Std.ExtTreeMap String String) :
    (Index.empty stopWordWeight fingerprints).Posted := by
  intro term
  simp [Index.empty, placesFrom, kept]

theorem getD_postings (posted : index.Posted) (term : String) :
    index.postings.getD term [] = placesFrom term 0 index.chunks.toList := by
  rw [Std.ExtTreeMap.getD_eq_getD_getElem?, posted term, getD_kept]

theorem addChunk (posted : index.Posted) {chunk : Chunk} (distinct : chunk.tokens.Nodup) :
    (index.addChunk chunk).Posted := by
  have chunks : (index.addChunk chunk).chunks.toList = index.chunks.toList ++ [chunk] := by
    simp [Index.addChunk]
  intro term
  rw [chunks, placesFrom_append, Nat.zero_add, Array.length_toList]
  unfold Index.addChunk
  rw [getElem?_foldl_addPlace _ _ distinct, posted.getD_postings]
  by_cases has : term ∈ chunk.tokens
  · simp [has, placesFrom, kept]
  · simp [has, placesFrom, posted term]

theorem foldl_addChunk (posted : index.Posted) (chunks : List Chunk)
    (distinct : ∀ chunk ∈ chunks, chunk.tokens.Nodup) :
    (chunks.foldl Index.addChunk index).Posted :=
  List.foldlRecOn (motive := Posted) chunks _ posted
    fun _ grown chunk member => grown.addChunk (distinct chunk member)

theorem remove (posted : index.Posted) (path : String) : (index.remove path).Posted := by
  have chunks := chunks_remove index path
  intro term
  rw [chunks]
  unfold Index.remove at chunks ⊢
  split at chunks
  · next present =>
      rw [if_pos present, Std.ExtTreeMap.getElem?_filter', Std.ExtTreeMap.getElem?_map,
        posted term, ← movePlaces_placesFrom]
      unfold kept
      by_cases nothing : placesFrom term 0 index.chunks.toList = []
      · simp [nothing, movePlaces]
      · simp [nothing, Option.filter]
  · next absent =>
      rw [if_neg absent, ← chunks]
      exact posted term

end Posted

/-! ## Runs -/

/-- Every file with chunks has a fingerprint. -/
def Known (index : Index) : Prop :=
  ∀ chunk ∈ index.chunks.toList, chunk.path ∈ index.fingerprints

/-- The weights that an index keeps, if any, are those that would be computed. -/
def Fresh (index : Index) : Prop :=
  ∀ table, index.weights = some table → table = index.computeWeights

/-- What is done to an index: changes, and searches in between. -/
inductive Change where
  | update (record : Record)
  | remove (path : String)
  | search (text : String) (limit : Nat)

def Change.applyTo (index : Index) : Change → Index
  | .update record => (index.update record).2
  | .remove path => index.remove path
  | .search text limit => index.afterSearch text limit

/-- Changes made to an index without chunks. -/
def run (stopWordWeight : Float) (fingerprints : Std.ExtTreeMap String String)
    (changes : List Change) : Index :=
  changes.foldl Change.applyTo (empty stopWordWeight fingerprints)

theorem Known.remove {index : Index} (known : index.Known) (path : String) :
    (index.remove path).Known := by
  intro chunk member
  rw [chunks_remove, List.mem_filter] at member
  have elsewhere : ¬ path = chunk.path := by
    intro same
    simp [same] at member
  rw [fingerprints_remove]
  exact Std.ExtTreeMap.mem_erase.mpr ⟨by simpa using elsewhere, known chunk member.1⟩

/-- A search changes nothing but the weights that are kept. -/
theorem afterSearch_frame (index : Index) (text : String) (limit : Nat) :
    ∃ weights, index.afterSearch text limit = { index with weights := weights } := by
  unfold afterSearch
  split
  · exact ⟨_, rfl⟩
  · exact ⟨index.weights, rfl⟩

theorem applyTo_sound {index : Index} (sound : index.Posted ∧ index.Known) (change : Change) :
    (Change.applyTo index change).Posted ∧ (Change.applyTo index change).Known := by
  obtain ⟨posted, known⟩ := sound
  cases change with
  | remove path => exact ⟨posted.remove path, known.remove path⟩
  | search text limit =>
      obtain ⟨weights, frame⟩ := index.afterSearch_frame text limit
      rw [Change.applyTo, frame]
      exact ⟨posted, known⟩
  | update record =>
      rw [Change.applyTo]
      by_cases skipped : index.fingerprints[record.path]? = some record.fingerprint ∧
          index.containsFile record.path = true
      · rw [update_of_known skipped]
        exact ⟨posted, known⟩
      · have added := (posted.remove record.path).foldl_addChunk (chunksOf record)
          fun _ member => nodup_tokens_of_mem_chunksOf member
        rw [update_eq skipped]
        refine ⟨added, ?_⟩
        intro chunk member
        have member : chunk ∈ ((chunksOf record).foldl addChunk
            (index.remove record.path)).chunks.toList := member
        rw [chunks_foldl_addChunk, List.mem_append] at member
        show chunk.path ∈ (index.fingerprints.erase record.path).insert record.path
          record.fingerprint
        rw [Std.ExtTreeMap.mem_insert]
        rcases member with old | new
        · right
          have still := known.remove record.path chunk old
          rwa [fingerprints_remove] at still
        · left
          simp [path_of_mem_chunksOf new]

theorem run_sound (stopWordWeight : Float) (fingerprints : Std.ExtTreeMap String String)
    (changes : List Change) :
    (run stopWordWeight fingerprints changes).Posted ∧
      (run stopWordWeight fingerprints changes).Known := by
  refine List.foldlRecOn (motive := fun index : Index => index.Posted ∧ index.Known) changes _ ?_
    fun _ sound change _ => applyTo_sound sound change
  refine ⟨Posted.empty stopWordWeight fingerprints, ?_⟩
  intro chunk member
  simp [empty] at member

/-! ## Kept weights -/

theorem Fresh.currentWeights_eq {index : Index} (fresh : index.Fresh) :
    index.currentWeights = index.computeWeights := by
  unfold currentWeights
  cases kept : index.weights with
  | none => rfl
  | some table => exact fresh table kept

theorem Fresh.withWeights {index : Index} (fresh : index.Fresh) : index.withWeights.Fresh := by
  intro table kept
  exact (Option.some.inj kept).symm.trans fresh.currentWeights_eq

/-- Where chunks come or go, no weights are kept; otherwise they are those of the same chunks. -/
theorem Fresh.applyTo {index : Index} (fresh : index.Fresh) (change : Change) :
    (Change.applyTo index change).Fresh := by
  cases change with
  | remove path =>
      rw [Change.applyTo, remove]
      split
      · intro table kept
        exact absurd kept (by simp)
      · exact fresh
  | update record =>
      rw [Change.applyTo, update]
      split
      · exact fresh
      · intro table kept
        exact absurd kept (by simp)
  | search text limit =>
      rw [Change.applyTo, afterSearch]
      split
      · exact fresh.withWeights
      · exact fresh

theorem fresh_run (stopWordWeight : Float) (fingerprints : Std.ExtTreeMap String String)
    (changes : List Change) : (run stopWordWeight fingerprints changes).Fresh := by
  refine List.foldlRecOn (motive := Fresh) changes _ ?_ fun _ fresh change _ => fresh.applyTo change
  intro table kept
  exact absurd kept (by simp [empty])

/-- A term weighs what its frequency says, whether or not the weight was kept. -/
theorem Fresh.weight_eq {index : Index} (fresh : index.Fresh) (term : String) :
    index.weight term = index.weightFor term (index.frequency term) := by
  rw [weight, fresh.currentWeights_eq, computeWeights, Std.ExtTreeMap.getElem?_map]
  cases found : index.postings[term]? with
  | some places => rfl
  | none =>
      have nowhere : index.frequency term = 0 := by
        rw [frequency, Std.ExtTreeMap.getD_eq_getD_getElem?, found]
        rfl
      rw [nowhere]
      rfl

/-! ## What a search looks at -/

theorem mem_of_perm_queryTerms {text : String} {order : List String}
    (permuted : order.Perm (queryTerms text)) (term : String) :
    term ∈ order ↔ term ∈ terms text := by
  rw [permuted.mem_iff, queryTerms, mem_distinctFrom]
  simp

namespace Posted

variable {index : Index}

theorem mem_places (posted : index.Posted) (term : String) (place : Nat) :
    place ∈ index.postings.getD term [] ↔
      ∃ chunk, index.chunks[place]? = some chunk ∧ term ∈ chunk.tokens := by
  rw [posted.getD_postings, mem_placesFrom]
  simp

theorem mem_postings (posted : index.Posted) (term : String) :
    term ∈ index.postings ↔ ∃ chunk ∈ index.chunks, term ∈ chunk.tokens := by
  have listed : term ∈ index.postings ↔ ¬ index.postings.getD term [] = [] := by
    rw [posted.getD_postings, Std.ExtTreeMap.mem_iff_isSome_getElem?, posted term, kept]
    split <;> simp [*]
  rw [listed]
  constructor
  · intro something
    obtain ⟨place, member⟩ := List.exists_mem_of_ne_nil _ something
    obtain ⟨chunk, found, has⟩ := (posted.mem_places term place).mp member
    exact ⟨chunk, Array.mem_of_getElem? found, has⟩
  · rintro ⟨chunk, member, has⟩
    obtain ⟨place, found⟩ := Array.getElem?_of_mem member
    exact List.ne_nil_of_mem ((posted.mem_places term place).mpr ⟨chunk, found, has⟩)

theorem mem_candidates (posted : index.Posted) {text : String} {order : List String}
    (permuted : order.Perm (queryTerms text)) (place : Nat) :
    place ∈ index.candidates (index.queryIn text order) ↔
      ∃ chunk, index.chunks[place]? = some chunk ∧ ∃ term ∈ terms text, term ∈ chunk.tokens := by
  have wanted : ∀ term,
      (∃ entry ∈ index.queryIn text order, entry.1 = term) ↔ term ∈ terms text := by
    intro term
    rw [← mem_of_perm_queryTerms permuted]
    constructor
    · rintro ⟨entry, inQuery, rfl⟩
      obtain ⟨term, listed, rfl⟩ := List.mem_map.mp inQuery
      exact listed
    · intro listed
      exact ⟨_, List.mem_map_of_mem listed, rfl⟩
  rw [candidates, List.mem_filter, List.mem_range, List.any_eq_true]
  constructor
  · rintro ⟨_, entry, inQuery, listed⟩
    obtain ⟨chunk, found, has⟩ :=
      (posted.mem_places entry.1 place).mp (List.contains_iff_mem.mp listed)
    exact ⟨chunk, found, entry.1, (wanted entry.1).mp ⟨entry, inQuery, rfl⟩, has⟩
  · rintro ⟨chunk, found, term, inText, has⟩
    obtain ⟨entry, inQuery, rfl⟩ := (wanted term).mpr inText
    obtain ⟨bound, _⟩ := Array.getElem?_eq_some_iff.mp found
    have listed := (posted.mem_places entry.1 place).mpr ⟨chunk, found, has⟩
    exact ⟨bound, entry, inQuery, List.contains_iff_mem.mpr listed⟩

end Posted

/-- Going through the places of a list is going through the list. -/
theorem filterMap_range_length {α β : Type} (items : List α) (chooseAt : Nat → Option β)
    (choose : α → Option β)
    (agree : ∀ place item, items[place]? = some item → chooseAt place = choose item) :
    (List.range items.length).filterMap chooseAt = items.filterMap choose := by
  induction items generalizing chooseAt with
  | nil => rfl
  | cons first rest inductionHypothesis =>
      have later := inductionHypothesis (chooseAt ∘ Nat.succ)
        fun place item found => agree (place + 1) item (by simpa using found)
      rw [List.length_cons, List.range_succ_eq_map, List.filterMap_cons, List.filterMap_map,
        List.filterMap_cons, later, agree 0 first rfl]

/-- The candidates for a text are gone through in the order of their chunks. -/
theorem Posted.filterMap_candidates {index : Index} (posted : index.Posted) {β : Type}
    {text : String} {order : List String} (permuted : order.Perm (queryTerms text))
    (choose : Chunk → Option β) :
    ((index.candidates (index.queryIn text order)).filterMap fun place =>
        index.chunks[place]?.bind choose) =
      (index.chunks.toList.filter fun chunk =>
        (terms text).any fun term => chunk.tokens.contains term).filterMap choose := by
  rw [candidates, List.filterMap_filter, List.filterMap_filter, ← Array.length_toList]
  apply filterMap_range_length
  intro place chunk inList
  have found : index.chunks[place]? = some chunk := by rwa [← Array.getElem?_toList]
  obtain ⟨bound, _⟩ := Array.getElem?_eq_some_iff.mp found
  have shares := posted.mem_candidates permuted place
  simp only [candidates, List.mem_filter, List.mem_range, bound, true_and, found,
    Option.some.injEq, exists_eq_left'] at shares
  simp only [shares, found, Option.bind_some, List.any_eq_true, List.contains_iff_mem]

/-- The early exits find nothing that the search itself would find: without terms the length of the
query is zero. -/
theorem searchIn_eq_take (index : Index) {text : String} {order : List String}
    (permuted : order.Perm (queryTerms text)) (limit : Nat) :
    index.searchIn text order limit = (index.hits (index.queryIn text order)).take limit := by
  by_cases proceeds : isSearch text limit = true
  · rw [searchIn, if_pos proceeds]
    rfl
  · rw [searchIn, if_neg proceeds]
    simp only [isSearch, Bool.and_eq_true, Bool.not_eq_true', bne_iff_ne, ne_eq, not_and,
      Decidable.not_not] at proceeds
    by_cases noTerms : terms text = []
    · have nothing : order = [] := by
        rw [queryTerms, noTerms] at permuted
        exact permuted.eq_nil
      have zero : (norm [] == 0.0) = true := by decide
      rw [nothing, queryIn, List.map_nil, hits, List.map_nil, if_pos zero, List.take_nil]
    · rw [proceeds (by simpa using noTerms), List.take_zero]

theorem Posted.searchIn_eq {index : Index} (posted : index.Posted) {text : String}
    {order : List String} (permuted : order.Perm (queryTerms text)) (limit : Nat) :
    index.searchIn text order limit =
      if norm ((index.queryIn text order).map (·.2)) == 0.0 then [] else
        (((index.chunks.toList.filter fun chunk =>
            (terms text).any fun term => chunk.tokens.contains term).filterMap fun chunk =>
          (index.score? (index.queryIn text order)
            (norm ((index.queryIn text order).map (·.2))) chunk).map
            fun score => (⟨chunk, score⟩ : Hit)).mergeSort hitBefore).take limit := by
  rw [← posted.filterMap_candidates permuted, searchIn_eq_take index permuted]
  unfold hits
  dsimp only
  by_cases early : (norm ((index.queryIn text order).map (·.2)) == 0.0) = true
  · rw [if_pos early, if_pos early, List.take_nil]
  · rw [if_neg early, if_neg early]
    congr 3
    funext place
    cases index.chunks[place]? <;> rfl

/-- After every run: the places of a term ascend and are those of the chunks that have it, a term
without chunks is not kept, and every file with chunks has a fingerprint. So no look-up of a place
misses, the number of places is the number of chunks, and a search looks at just the chunks that
share a term with the text, in whatever order it takes the terms. -/
theorem run_posts_chunks (stopWordWeight : Float) (fingerprints : Std.ExtTreeMap String String)
    (changes : List Change) :
    let index := run stopWordWeight fingerprints changes
    (∀ (term : String) (places : List Nat), index.postings[term]? = some places →
      places.Pairwise (· < ·) ∧ ∀ place, place ∈ places ↔
        ∃ chunk, index.chunks[place]? = some chunk ∧ term ∈ chunk.tokens) ∧
    (∀ term : String, term ∈ index.postings ↔ ∃ chunk ∈ index.chunks, term ∈ chunk.tokens) ∧
    (∀ chunk ∈ index.chunks, chunk.path ∈ index.fingerprints) ∧
    (∀ (term path : String) (place : Nat), place ∈ index.postings.getD term [] →
      place < index.chunks.size ∧ place < (remap path 0 index.chunks.toList).length) ∧
    (∀ term, index.frequency term =
      index.chunks.toList.countP fun chunk => chunk.tokens.contains term) ∧
    (∀ text order, order.Perm (queryTerms text) →
      ∀ place, place ∈ index.candidates (index.queryIn text order) ↔
        ∃ chunk, index.chunks[place]? = some chunk ∧ ∃ term ∈ terms text, term ∈ chunk.tokens) ∧
    ∀ text order limit, order.Perm (queryTerms text) → index.searchIn text order limit =
      if norm ((index.queryIn text order).map (·.2)) == 0.0 then [] else
        (((index.chunks.toList.filter fun chunk =>
            (terms text).any fun term => chunk.tokens.contains term).filterMap fun chunk =>
          (index.score? (index.queryIn text order)
            (norm ((index.queryIn text order).map (·.2))) chunk).map
            fun score => (⟨chunk, score⟩ : Hit)).mergeSort hitBefore).take limit := by
  intro index
  have posted : index.Posted := (run_sound stopWordWeight fingerprints changes).1
  have known : index.Known := (run_sound stopWordWeight fingerprints changes).2
  refine ⟨?_, posted.mem_postings, ?_, ?_, ?_, fun _ _ permuted => posted.mem_candidates permuted,
    fun _ _ limit permuted => posted.searchIn_eq permuted limit⟩
  · intro term places found
    have listed : index.postings.getD term [] = places := by
      rw [Std.ExtTreeMap.getD_eq_getD_getElem?, found, Option.getD_some]
    rw [← listed]
    refine ⟨?_, posted.mem_places term⟩
    rw [posted.getD_postings]
    exact pairwise_placesFrom term 0 _
  · exact fun chunk member => known chunk (Array.mem_toList_iff.mpr member)
  · intro term path place listed
    obtain ⟨chunk, found, _⟩ := (posted.mem_places term place).mp listed
    obtain ⟨bound, _⟩ := Array.getElem?_eq_some_iff.mp found
    rw [length_remap, Array.length_toList]
    exact ⟨bound, bound⟩
  · intro term
    rw [frequency, posted.getD_postings, length_placesFrom]

end Index

end CodeIndex.Search
