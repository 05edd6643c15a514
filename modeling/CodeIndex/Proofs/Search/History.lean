import CodeIndex.Proofs.Search.Postings

/-!
Contract: a search forgets the history of its index.

Owns:
- `Search.Index.lastRecords`: the records that are there at the end of a run;
- `Search.Index.Holds.applyTo`, `Search.Index.holds_run`: an index holds the chunks of these
  records, whichever updates were skipped on the way;
- `Search.Index.Alike`: two indexes hold the same chunks, in whatever order;
- `Search.Match`, `Search.Index.found`: what a query and the chunks have in common, apart from the
  length of the query;
- `Search.Index.search_forgets_history`: their searches find the same chunks with the same scores.

Two runs may leave the chunks in different places. Those of one file stand in the same order in both
rows, so each chunk occurs equally often, and all that a score is made of follows: the number of
chunks, the number of chunks that have a term, and the terms of a chunk in their order. The order of
the query's terms is not laid down. It decides how the length of the query is rounded, and nothing
else.
-/

set_option autoImplicit false

namespace CodeIndex.Search.Index

/-! ## Records at the end of a run -/

/-- The last record of each path, after a change. -/
def Change.note (records : Std.ExtTreeMap String Record) : Change → Std.ExtTreeMap String Record
  | .update record => records.insert record.path record
  | .remove path => records.erase path
  | .search _ _ => records

/-- The last record of each path that is still there. -/
def lastRecords (changes : List Change) : Std.ExtTreeMap String Record :=
  changes.foldl Change.note ∅

/-- Records of one path with the same fingerprint differ in their times at most. -/
def Consistent (changes : List Change) : Prop :=
  ∀ left right, Change.update left ∈ changes → Change.update right ∈ changes →
    left.path = right.path → left.fingerprint = right.fingerprint →
      { left with lastIndexed := right.lastIndexed } = right

/-- Records come from changes, each kept under its path. -/
def ComeFrom (changes : List Change) (records : Std.ExtTreeMap String Record) : Prop :=
  ∀ (path : String) (record : Record), records[path]? = some record →
    record.path = path ∧ Change.update record ∈ changes

theorem ComeFrom.note {changes : List Change} {records : Std.ExtTreeMap String Record}
    (origin : ComeFrom changes records) {change : Change} (member : change ∈ changes) :
    ComeFrom changes (change.note records) := by
  intro path record found
  cases change with
  | update newer =>
      rw [Change.note, Std.ExtTreeMap.getElem?_insert] at found
      split at found
      · next same =>
          obtain rfl := Option.some.inj found
          exact ⟨Std.LawfulEqCmp.eq_of_compare same, member⟩
      · exact origin path record found
  | remove gone =>
      rw [Change.note, Std.ExtTreeMap.getElem?_erase] at found
      split at found
      · exact absurd found (by simp)
      · exact origin path record found
  | search _ _ => exact origin path record found

/-! ## Chunks at the end of a run -/

/-- An index that holds records holds them after a change. An update that is skipped brings no other
chunks than those that are there. -/
theorem Holds.applyTo {changes : List Change} (consistent : Consistent changes) {index : Index}
    {records : Std.ExtTreeMap String Record} (holds : index.Holds records)
    (origin : ComeFrom changes records) {change : Change} (member : change ∈ changes) :
    (Change.applyTo index change).Holds (change.note records) := by
  cases change with
  | remove path =>
      apply holds.remove
      · intro other different
        simp [Change.note, Std.ExtTreeMap.getElem?_erase, different]
      · simp [Change.note]
  | search text limit =>
      obtain ⟨weights, frame⟩ := index.afterSearch_frame text limit
      rw [Change.applyTo, frame]
      exact ⟨holds.chunks, holds.fingerprints⟩
  | update record =>
      have others : ∀ other, ¬ record.path = other →
          (records.insert record.path record)[other]? = records[other]? := by
        intro other different
        simp [Std.ExtTreeMap.getElem?_insert, different]
      have self : (records.insert record.path record)[record.path]? = some record := by simp
      by_cases known : ∃ old, records[record.path]? = some old ∧
          old.fingerprint = record.fingerprint
      · obtain ⟨old, found, same⟩ := known
        obtain ⟨isPath, inChanges⟩ := origin record.path old found
        have onlyTime := consistent old record inChanges member isPath same
        have skipped : (index.update record).2 = index := by
          apply update_of_known
          constructor
          · rw [holds.fingerprints, found, Option.map_some, same]
          · rw [containsFile_iff, holds.chunks, found]
            simpa using chunksOf_ne_nil old
        rw [Change.applyTo, skipped]
        apply holds.retime others found
        rw [onlyTime]
        exact self
      · apply holds.update others rfl self
        intro old found same
        exact known ⟨old, found, same⟩

theorem Holds.foldl {changes : List Change} (consistent : Consistent changes) (rest : List Change)
    (part : ∀ change ∈ rest, change ∈ changes) {index : Index}
    {records : Std.ExtTreeMap String Record} (holds : index.Holds records)
    (origin : ComeFrom changes records) :
    (rest.foldl Change.applyTo index).Holds (rest.foldl Change.note records) := by
  induction rest generalizing index records with
  | nil => exact holds
  | cons change others inductionHypothesis =>
      have member := part change List.mem_cons_self
      exact inductionHypothesis
        (fun later inOthers => part later (List.mem_cons_of_mem change inOthers))
        (holds.applyTo consistent origin member) (origin.note member)

/-- After every run, an index holds the chunks of the records that are there at the end. -/
theorem holds_run (stopWordWeight : Float) {changes : List Change}
    (consistent : Consistent changes) :
    (run stopWordWeight ∅ changes).Holds (lastRecords changes) := by
  apply Holds.foldl consistent changes (fun _ member => member) (holds_empty stopWordWeight)
  intro path record found
  simp at found

theorem stopWordWeight_applyTo (index : Index) (change : Change) :
    (Change.applyTo index change).stopWordWeight = index.stopWordWeight := by
  have removed : ∀ path, (index.remove path).stopWordWeight = index.stopWordWeight := by
    intro path
    unfold remove
    split <;> rfl
  cases change with
  | remove path => exact removed path
  | search text limit =>
      obtain ⟨_, frame⟩ := index.afterSearch_frame text limit
      rw [Change.applyTo, frame]
  | update record =>
      rw [Change.applyTo, update]
      split
      · rfl
      · exact List.foldlRecOn
          (motive := fun grown : Index => grown.stopWordWeight = index.stopWordWeight)
          (chunksOf record) _ (removed record.path) fun _ kept _ _ => kept

theorem stopWordWeight_run (stopWordWeight : Float) (changes : List Change) :
    (run stopWordWeight ∅ changes).stopWordWeight = stopWordWeight :=
  List.foldlRecOn (motive := fun index : Index => index.stopWordWeight = stopWordWeight) changes _
    rfl fun index kept change _ => (stopWordWeight_applyTo index change).trans kept

/-! ## Indexes with the same chunks -/

/-- An index keeps the places of each term, and no weights but those of its chunks. -/
structure Sound (index : Index) : Prop where
  posted : index.Posted
  fresh : index.Fresh

theorem sound_run (stopWordWeight : Float) (changes : List Change) :
    (run stopWordWeight ∅ changes).Sound :=
  ⟨(run_sound stopWordWeight ∅ changes).1, fresh_run stopWordWeight ∅ changes⟩

/-- Two indexes have the same chunks, found by their terms, and weigh stop words alike. -/
structure Alike (left right : Index) : Prop where
  chunks : left.chunks.toList.Perm right.chunks.toList
  leftSound : left.Sound
  rightSound : right.Sound
  stopWordWeight : left.stopWordWeight = right.stopWordWeight

/-- Chunks that are the same for every file are the same altogether. -/
theorem perm_of_chunksAt {left right : Index}
    (same : ∀ path, left.chunksAt path = right.chunksAt path) :
    left.chunks.toList.Perm right.chunks.toList := by
  have counted : ∀ (index : Index) (chunk : Chunk),
      index.chunks.toList.count chunk = (index.chunksAt chunk.path).count chunk := by
    intro index chunk
    rw [chunksAt, List.count_filter (by simp)]
  apply List.perm_iff_count.mpr
  intro chunk
  rw [counted, counted, same]

theorem alike_of_holds {left right : Index} {records : Std.ExtTreeMap String Record}
    (leftHolds : left.Holds records) (rightHolds : right.Holds records)
    (leftSound : left.Sound) (rightSound : right.Sound)
    (stopWordWeight : left.stopWordWeight = right.stopWordWeight) : Alike left right where
  chunks := perm_of_chunksAt fun path =>
    (leftHolds.chunks path).trans (rightHolds.chunks path).symm
  leftSound := leftSound
  rightSound := rightSound
  stopWordWeight := stopWordWeight

theorem Posted.frequency_eq {index : Index} (posted : index.Posted) (term : String) :
    index.frequency term = index.chunks.toList.countP fun chunk => chunk.tokens.contains term := by
  rw [frequency, posted.getD_postings, length_placesFrom]

/-! ## What is found -/

end Index

/-- A chunk that a query matches, with the product of the two and the sum of the squares of the
chunk's weights. -/
structure Match where
  chunk : Chunk
  product : Float
  squares : Float

/-- The hit that a match makes, given the length of the query. -/
def Match.rated (queryNorm : Float) (found : Match) : Hit :=
  ⟨found.chunk, found.product / (queryNorm * Float.sqrt found.squares)⟩

/-- The hits that matches make. A query without length has none. -/
def rateAll (queryNorm : Float) (found : List Match) : List Hit :=
  if queryNorm == 0.0 then [] else found.map (Match.rated queryNorm)

namespace Index

/-- What a chunk has in common with a query, if it matches at all. -/
def match? (index : Index) (query : List (String × Float)) (chunk : Chunk) : Option Match :=
  let squares := sumOfSquares (chunk.tokens.map index.tokenWeight)
  let product := index.product query chunk
  if product <= 0.0 || squares <= 0.0 then none else some ⟨chunk, product, squares⟩

/-- The matches of a text: of the chunks that share a term with it. -/
def found (index : Index) (text : String) : List Match :=
  (index.chunks.toList.filter fun chunk =>
    (terms text).any fun term => chunk.tokens.contains term).filterMap
      (index.match? (index.queryIn text (queryTerms text)))

/-- The length of a query takes part in a score at the end only. -/
theorem map_score? (index : Index) (query : List (String × Float)) (queryNorm : Float)
    (chunk : Chunk) :
    (index.score? query queryNorm chunk).map (fun score => (⟨chunk, score⟩ : Hit)) =
      (index.match? query chunk).map (Match.rated queryNorm) := by
  unfold score? match?
  dsimp only
  split <;> rfl

theorem lookup_queryIn (index : Index) (text : String) (order : List String) (token : String) :
    (index.queryIn text order).lookup token =
      if token ∈ order then
        some (Float.ofNat ((terms text).count token) * index.weight token)
      else none := by
  induction order with
  | nil => rfl
  | cons first rest inductionHypothesis =>
      rw [queryIn, List.map_cons, List.lookup_cons]
      by_cases same : token = first
      · simp [same]
      · have other : (token == first) = false := beq_false_of_ne same
        rw [queryIn] at inductionHypothesis
        simp only [other, inductionHypothesis, List.mem_cons, same, false_or]

/-- What a query and a chunk share does not depend on the order of the query's terms. -/
theorem product_queryIn (index : Index) {text : String} {order : List String}
    (permuted : order.Perm (queryTerms text)) :
    index.product (index.queryIn text order) =
      index.product (index.queryIn text (queryTerms text)) := by
  have looked : ∀ token, (index.queryIn text order).lookup token =
      (index.queryIn text (queryTerms text)).lookup token := by
    intro token
    rw [lookup_queryIn, lookup_queryIn]
    simp only [permuted.mem_iff]
  funext chunk
  simp only [product, looked]

theorem match?_queryIn (index : Index) {text : String} {order : List String}
    (permuted : order.Perm (queryTerms text)) :
    index.match? (index.queryIn text order) =
      index.match? (index.queryIn text (queryTerms text)) := by
  funext chunk
  rw [match?, match?, product_queryIn index permuted]

/-- With room for all chunks, a search finds the matches, whatever the order of the query's terms.
They are rated by the length of the query, as it comes out in that order. -/
theorem Posted.searchIn_perm {index : Index} (posted : index.Posted) {text : String}
    {order : List String} (permuted : order.Perm (queryTerms text)) {limit : Nat}
    (room : index.chunks.size ≤ limit) :
    (index.searchIn text order limit).Perm
      (rateAll (norm ((index.queryIn text order).map (·.2))) (index.found text)) := by
  have bounded (choose : Chunk → Option Hit) :
      (((index.chunks.toList.filter fun chunk =>
        (terms text).any fun term => chunk.tokens.contains term).filterMap choose).mergeSort
          hitBefore).length ≤ limit := by
    rw [List.length_mergeSort]
    calc ((index.chunks.toList.filter _).filterMap choose).length
        ≤ (index.chunks.toList.filter _).length := List.length_filterMap_le _ _
      _ ≤ index.chunks.toList.length := List.length_filter_le _ _
      _ ≤ limit := by rwa [Array.length_toList]
  rw [posted.searchIn_eq permuted, rateAll]
  split
  · exact List.Perm.refl []
  · rw [List.take_of_length_le (bounded _), found, ← match?_queryIn index permuted,
      List.map_filterMap]
    simp only [map_score?]
    exact List.mergeSort_perm _ _

namespace Alike

variable {left right : Index} (alike : Alike left right)

include alike

theorem size_eq : left.chunks.size = right.chunks.size := by
  rw [← Array.length_toList, ← Array.length_toList, alike.chunks.length_eq]

theorem frequency_eq (term : String) : left.frequency term = right.frequency term := by
  rw [alike.leftSound.posted.frequency_eq, alike.rightSound.posted.frequency_eq,
    alike.chunks.countP_eq]

theorem weightFor_eq : left.weightFor = right.weightFor := by
  funext term frequency
  simp only [weightFor, inverseFrequency, alike.size_eq, alike.stopWordWeight]

/-- Both indexes have the same terms. -/
theorem mem_postings_iff (term : String) : term ∈ left.postings ↔ term ∈ right.postings := by
  rw [alike.leftSound.posted.mem_postings, alike.rightSound.posted.mem_postings]
  simp only [← Array.mem_toList_iff, alike.chunks.mem_iff]

/-- Whichever weights were kept on the way, both indexes go by the same ones. -/
theorem currentWeights_eq : left.currentWeights = right.currentWeights := by
  rw [alike.leftSound.fresh.currentWeights_eq, alike.rightSound.fresh.currentWeights_eq]
  apply Std.ExtTreeMap.ext_getElem?
  intro term
  have known := alike.mem_postings_iff term
  rw [Std.ExtTreeMap.mem_iff_isSome_getElem?, Std.ExtTreeMap.mem_iff_isSome_getElem?] at known
  simp only [computeWeights, Std.ExtTreeMap.getElem?_map, alike.weightFor_eq, alike.frequency_eq]
  cases inLeft : left.postings[term]? <;> cases inRight : right.postings[term]? <;>
    simp_all

theorem queryIn_eq : left.queryIn = right.queryIn := by
  funext text order
  simp only [queryIn, weight, alike.currentWeights_eq, alike.weightFor_eq]

theorem tokenWeight_eq : left.tokenWeight = right.tokenWeight := by
  funext token
  simp only [tokenWeight, alike.currentWeights_eq]

theorem product_eq : left.product = right.product := by
  funext query chunk
  simp only [product, alike.tokenWeight_eq]

theorem score?_eq : left.score? = right.score? := by
  funext query queryNorm chunk
  simp only [score?, alike.product_eq, alike.tokenWeight_eq]

theorem match?_eq : left.match? = right.match? := by
  funext query chunk
  simp only [match?, alike.product_eq, alike.tokenWeight_eq]

theorem found_perm (text : String) : (left.found text).Perm (right.found text) := by
  rw [found, found, alike.match?_eq, alike.queryIn_eq]
  exact (alike.chunks.filter _).filterMap _

end Alike

theorem perm_rateAll (queryNorm : Float) {found others : List Match} (same : found.Perm others) :
    (rateAll queryNorm found).Perm (rateAll queryNorm others) := by
  unfold rateAll
  split
  · exact List.Perm.refl []
  · exact same.map _

/-! ## Two histories of the same files -/

def sampleHandler (fingerprint name : String) : Record :=
  { path := "events.ts"
    fingerprint := fingerprint
    lastIndexed := 0
    symbols := [{ name := name, kind := .function, line := 1, endLine := 3 }] }

def sampleUser (time : Timestamp) : Record :=
  { path := "user.ts"
    fingerprint := "2"
    lastIndexed := time
    symbols := [{ name := "fetchUser", kind := .function, line := 1, endLine := 1 }] }

/-- A file is replaced after a search, and another one is put in twice. The second time is
skipped. -/
def longHistory : List Change :=
  [.update (sampleHandler "1" "handleClick"), .search "click" 5, .update (sampleUser 0),
    .update (sampleHandler "3" "handleKey"), .update (sampleUser 5)]

def shortHistory : List Change :=
  [.update (sampleHandler "3" "handleKey"), .update (sampleUser 5)]

theorem consistent_longHistory : Consistent longHistory := by
  intro left right leftIn rightIn samePath sameFingerprint
  simp only [longHistory, List.mem_cons, Change.update.injEq, reduceCtorEq, List.not_mem_nil,
    or_false, false_or] at leftIn rightIn
  rcases leftIn with rfl | rfl | rfl | rfl <;> rcases rightIn with rfl | rfl | rfl | rfl <;>
    first
    | rfl
    | exact absurd samePath (by decide)
    | exact absurd sameFingerprint (by decide)

theorem consistent_shortHistory : Consistent shortHistory := by
  have part : ∀ change ∈ shortHistory, change ∈ longHistory := by simp [shortHistory, longHistory]
  intro left right leftIn rightIn
  exact consistent_longHistory left right (part _ leftIn) (part _ rightIn)

end CodeIndex.Search.Index
