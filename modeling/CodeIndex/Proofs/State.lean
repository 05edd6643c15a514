import CodeIndex.Proofs.Document

/-!
Contract: a directory gives back the state that was saved in it.

Owns:
- `State.files_writeDocuments`: documents that are written one after the other are all there then;
- `State.load_save`: a state that was saved is loaded again;
- `State.Remains`: what is left of a state when documents are lost.

No document is written over another one, nor beside its place.
-/

set_option autoImplicit false

namespace CodeIndex

open CodeIndex.Path

/-! ## Files of a directory -/

theorem Text.join_concat {front : List String} (nonempty : ¬ front = []) (last : String) :
    join "/" (front ++ [last]) = join "/" front ++ "/" ++ last := by
  induction front with
  | nil => exact absurd rfl nonempty
  | cons first rest inductionHypothesis =>
      cases rest with
      | nil => rfl
      | cons second others =>
          have step : ∀ texts, join "/" (first :: second :: texts) =
              first ++ "/" ++ join "/" (second :: texts) := fun _ => rfl
          rw [List.cons_append, List.cons_append, step, step, ← List.cons_append,
            inductionHypothesis (by simp)]
          simp only [String.append_assoc]

theorem FileTree.pathOf_cons {place : List String} (nonempty : ¬ place = []) (name : String) :
    pathOf place ++ "/" ++ name = pathOf (name :: place) := by
  rw [pathOf, pathOf, key, key, List.reverse_cons, Text.join_concat (by simpa using nonempty)]
  simp only [String.append_assoc]

namespace State

/-- What has been written when all documents were: each is at its place, and files with other names
are as before. -/
structure Written (place : List String) (now : Timestamp) (documents : List (String × String))
    (before after : FileTree) : Prop where
  wellFormed : after.WellFormed
  document : ∀ document ∈ documents,
    after.files[FileTree.key (document.1 :: place)]? = some ⟨document.2.toUTF8, now⟩
  other : ∀ name, Clean name →
    (∀ document ∈ documents, ¬ name = document.1 ∧ ¬ name = document.1 ++ ".tmp") →
    after.files[FileTree.key (name :: place)]? = before.files[FileTree.key (name :: place)]?

theorem files_writeDocuments {place : List String} (nonempty : ¬ place = [])
    (clean : ∀ step ∈ place, Clean step) {now : Timestamp} {documents : List (String × String)}
    (names : ∀ document ∈ documents, Clean document.1)
    (apart : documents.Pairwise fun earlier later =>
      ¬ earlier.1 = later.1 ∧ ¬ earlier.1 = later.1 ++ ".tmp")
    {tree : FileTree} (wellFormed : tree.WellFormed)
    (saved : (writeDocuments (FileTree.pathOf place) now documents tree).1 = .complete) :
    Written place now documents tree
      (writeDocuments (FileTree.pathOf place) now documents tree).2 := by
  induction documents generalizing tree with
  | nil => exact ⟨wellFormed, by simp, fun _ _ _ => rfl⟩
  | cons first rest inductionHypothesis =>
      obtain ⟨name, text⟩ := first
      obtain ⟨cleanName, cleanNames⟩ := List.forall_mem_cons.mp names
      obtain ⟨firstApart, restApart⟩ := List.pairwise_cons.mp apart
      have cleanPlace : ∀ step ∈ name :: place, Clean step :=
        List.forall_mem_cons.mpr ⟨cleanName, clean⟩
      rw [writeDocuments, FileTree.pathOf_cons nonempty] at saved ⊢
      cases result : Document.save tree (FileTree.pathOf (name :: place)) text now with
      | mk outcome written =>
          cases outcome with
          | failed =>
              simp only [result] at saved
              exact absurd saved (by simp)
          | complete =>
              simp only [result] at saved ⊢
              have complete :
                  (Document.save tree (FileTree.pathOf (name :: place)) text now).1 =
                    .complete := by rw [result]
              have wellWritten := (Document.files_save wellFormed cleanPlace complete).1
              have files := fun {other : List String} (cleanOther : ∀ step ∈ other, Clean step) =>
                Document.getElem?_files_save wellFormed cleanPlace complete cleanOther
              rw [result] at wellWritten files
              have later := inductionHypothesis cleanNames restApart wellWritten saved
              refine ⟨later.wellFormed, ?_, ?_⟩
              · rw [List.forall_mem_cons]
                refine ⟨?_, later.document⟩
                rw [later.other name cleanName firstApart, files cleanPlace,
                  if_neg fun same => Document.ne_beside name (List.cons.inj same).1, if_pos rfl]
              · intro other cleanOther foreign
                obtain ⟨⟨different, besides⟩, foreignRest⟩ := List.forall_mem_cons.mp foreign
                rw [later.other other cleanOther foreignRest,
                  files (List.forall_mem_cons.mpr ⟨cleanOther, clean⟩),
                  if_neg fun same => besides (List.cons.inj same).1,
                  if_neg fun same => different (List.cons.inj same).1]

theorem clean_names (state : State) : ∀ document ∈ state.documents, Clean document.1 := by
  simp only [documents, List.forall_mem_cons]
  exact ⟨⟨by decide, by decide, by decide, by decide⟩,
    ⟨by decide, by decide, by decide, by decide⟩,
    ⟨by decide, by decide, by decide, by decide⟩, by simp⟩

theorem names_apart (state : State) : state.documents.Pairwise fun earlier later =>
    ¬ earlier.1 = later.1 ∧ ¬ earlier.1 = later.1 ++ ".tmp" := by
  simp [documents, cleanFile, recordsFile, fingerprintsFile]

section Save

variable {state : State} {disk : FileTree} (wellFormed : disk.WellFormed) {place : List String}
  (nonempty : ¬ place = []) (clean : ∀ step ∈ place, Clean step) {now : Timestamp}
  (saved : (state.save disk (FileTree.pathOf place) now).1 = .complete)

include wellFormed nonempty clean saved

theorem read?_save {document : String × String} (kept : document ∈ state.documents) :
    (state.save disk (FileTree.pathOf place) now).2.read?
        (FileTree.pathOf place ++ "/" ++ document.1) = some document.2.toUTF8 := by
  have written := files_writeDocuments nonempty clean state.clean_names state.names_apart
    wellFormed saved
  have found : (state.save disk (FileTree.pathOf place) now).2.find
      (FileTree.pathOf (document.1 :: place)) =
        .file (document.1 :: place) ⟨document.2.toUTF8, now⟩ :=
    FileTree.find_pathOf written.wellFormed (by simp)
      (List.forall_mem_cons.mpr ⟨state.clean_names document kept, clean⟩)
      (written.document document kept)
  rw [FileTree.pathOf_cons nonempty, FileTree.read?, found]

/-- A state that was saved is loaded again, if the symbols of its records have members up to sixty
levels deep. -/
theorem load_save {depth : Nat} (shallow : depth ≤ 60)
    (nested : ∀ entry ∈ state.records.toList, ∀ symbol ∈ entry.2.symbols, symbol.Nested depth) :
    load (state.save disk (FileTree.pathOf place) now).2 (FileTree.pathOf place) = state := by
  have found := fun (document : String × String) (kept : document ∈ state.documents) =>
    read?_save wellFormed nonempty clean saved kept
  have enough : 2 * depth + 5 ≤ Document.entryDepth := by
    rw [Document.entryDepth, Document.maximalDepth]
    omega
  let after := (state.save disk (FileTree.pathOf place) now).2
  have times : Document.load after (FileTree.pathOf place ++ "/" ++ cleanFile) version
      timeOfJson? = state.clean :=
    @Document.load_of_read? _ timeToJson _ _ (fun entry _ => whole_timeToJson entry.2)
      (fun entry _ => timeOfJson?_timeToJson 124 entry.2) _ _ 1
      (found (cleanFile, Document.text version timeToJson state.clean) (by simp [documents])) 1
  have records : Document.load after (FileTree.pathOf place ++ "/" ++ recordsFile) version
      Record.ofJson? = state.records :=
    @Document.load_of_read? _ Record.toJson _ _ (fun entry _ => entry.2.whole_toJson)
      (fun entry member => Record.ofJson?_toJson (nested entry member) enough) _ _ 1
      (found (recordsFile, Document.text version Record.toJson state.records)
        (by simp [documents])) 1
  have fingerprints : Document.load after (FileTree.pathOf place ++ "/" ++ fingerprintsFile)
      version fingerprintOfJson? = state.fingerprints :=
    @Document.load_of_read? _ Json.ofText _ _ (fun entry _ => Json.whole_ofText entry.2)
      (fun entry _ => Json.text?_ofText entry.2) _ _ 1
      (found (fingerprintsFile, Document.text version Json.ofText state.fingerprints)
        (by simp [documents])) 1
  rw [load, times, records, fingerprints]

end Save

/-! ## Lost documents -/

/-- What is left of a state when some of its documents are lost: each is as it was, or it counts as
empty. -/
structure Remains (left whole : State) : Prop where
  clean : left.clean = whole.clean ∨ left.clean = ∅
  records : left.records = whole.records ∨ left.records = ∅
  fingerprints : left.fingerprints = whole.fingerprints ∨ left.fingerprints = ∅

theorem Remains.refl (state : State) : state.Remains state :=
  ⟨Or.inl rfl, Or.inl rfl, Or.inl rfl⟩

end State

end CodeIndex
