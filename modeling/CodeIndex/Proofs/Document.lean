import CodeIndex.Proofs.Extract.Declared
import CodeIndex.Proofs.Text.Utf8
import CodeIndex.Proofs.Workspace
import CodeIndex.State

/-!
Contract: documents give back the entries that were saved.

Owns:
- `Document.entries?_text`: the entries of a text, if its version is the one asked for;
- `Document.files_save`, `Document.read?_save`: a file holds the text that was saved to it, and the
  other files are as before;
- `Document.load_save`: entries saved to a file and loaded from it, for any kind of entry;
- `State.documents_restored`: the three kinds of documents that an index keeps.
-/

set_option autoImplicit false

namespace CodeIndex

open CodeIndex.Path

/-! ## Files -/

theorem Text.join_append_last (front : List String) (last suffix : String) :
    join "/" (front ++ [last]) ++ suffix = join "/" (front ++ [last ++ suffix]) := by
  induction front with
  | nil => rfl
  | cons first rest inductionHypothesis =>
      have step : ∀ last, join "/" (first :: rest ++ [last]) =
          first ++ "/" ++ join "/" (rest ++ [last]) := by
        intro last
        cases rest <;> rfl
      rw [step, step, ← inductionHypothesis, String.append_assoc]

namespace FileTree

theorem find_pathOf {tree : FileTree} (wellFormed : tree.WellFormed) {place : List String}
    (nonempty : ¬ place = []) (clean : ∀ step ∈ place, Clean step) {file : File}
    (kept : tree.files[key place]? = some file) : tree.find (pathOf place) = .file place file := by
  have cleanOrder : ∀ step ∈ place.reverse, Clean step :=
    fun step member => clean step (List.mem_reverse.mp member)
  have slash : pathOf place = "" ++ "/" ++ Text.join "/" place.reverse := by
    simp [pathOf, key]
  have order : Text.split '/' (pathOf place) = "" :: place.reverse := by
    have top : Text.split '/' "" = [""] := by decide
    rw [slash, Text.split_append, top,
      Text.split_join (by simpa using nonempty) fun step member => (cleanOrder step member).free]
    rfl
  rw [find, order, walk_skip, wellFormed.walk_eq_file]
  · simpa using kept
  · simpa using nonempty
  · simpa using clean

theorem clean_append {name : String} (clean : Clean name) {suffix : String}
    (long : 2 < suffix.toList.length) (free : ¬ '/' ∈ suffix.toList) : Clean (name ++ suffix) := by
  have tooLong : ∀ other : String, other.toList.length ≤ 2 → ¬ name ++ suffix = other := by
    intro other short same
    have length := congrArg (fun text => text.toList.length) same
    simp only [String.toList_append, List.length_append] at length
    omega
  have noSlash : ¬ '/' ∈ (name ++ suffix).toList := by
    rw [String.toList_append, List.mem_append, not_or]
    exact ⟨clean.free, free⟩
  exact ⟨tooLong "" (by decide), tooLong "." (by decide), tooLong ".." (by decide), noSlash⟩

theorem pathOf_append (name suffix : String) (above : List String) :
    pathOf (name :: above) ++ suffix = pathOf ((name ++ suffix) :: above) := by
  rw [pathOf, pathOf, key, key, String.append_assoc, List.reverse_cons, List.reverse_cons,
    Text.join_append_last]

end FileTree

namespace Document

/-- What was written when everything was: the text beside its place, then at its place, before the
first copy was removed. -/
theorem exists_of_save_complete {tree : FileTree} {path text : String} {now : Timestamp}
    (saved : (save tree path text now).1 = .complete) :
    ∃ written moved, tree.write? (path ++ ".tmp") ⟨text.toUTF8, now⟩ now = some written ∧
      written.write? path ⟨text.toUTF8, now⟩ now = some moved ∧
      moved.remove? (path ++ ".tmp") = some (save tree path text now).2 := by
  cases wrote : tree.write? (path ++ ".tmp") ⟨text.toUTF8, now⟩ now with
  | none =>
      simp only [save, wrote] at saved
      exact absurd saved (by simp)
  | some written =>
      cases finished : (written.write? path ⟨text.toUTF8, now⟩ now).bind
          fun moved => moved.remove? (path ++ ".tmp") with
      | none =>
          simp only [save, wrote, finished] at saved
          exact absurd saved (by simp)
      | some after =>
          obtain ⟨moved, wroteAgain, removed⟩ := Option.bind_eq_some_iff.mp finished
          refine ⟨written, moved, rfl, wroteAgain, ?_⟩
          simp only [save, wrote, finished, removed]

section Files

variable {tree : FileTree} {name text : String} {above : List String} {now : Timestamp}

/-- A name is not the one under which the text is first written beside it. -/
theorem ne_beside (name : String) : ¬ name = name ++ ".tmp" := by
  intro same
  have length := congrArg (fun text => text.toList.length) same
  simp at length

theorem clean_beside (clean : ∀ step ∈ name :: above, Clean step) :
    ∀ step ∈ (name ++ ".tmp") :: above, Clean step := by
  rw [List.forall_mem_cons] at clean ⊢
  exact ⟨FileTree.clean_append clean.1 (by decide) (by decide), clean.2⟩

/-- What a save does to the files: the text is put in beside its place, then at its place, and then
the first copy is taken out. -/
theorem files_save (wellFormed : tree.WellFormed) (clean : ∀ step ∈ name :: above, Clean step)
    (saved : (save tree (FileTree.pathOf (name :: above)) text now).1 = .complete) :
    let after := (save tree (FileTree.pathOf (name :: above)) text now).2
    after.WellFormed ∧
      after.files =
        ((tree.files.insert (FileTree.key ((name ++ ".tmp") :: above)) ⟨text.toUTF8, now⟩).insert
          (FileTree.key (name :: above)) ⟨text.toUTF8, now⟩).erase
            (FileTree.key ((name ++ ".tmp") :: above)) := by
  have cleanBeside := clean_beside clean
  have apart : ¬ FileTree.key (name :: above) = FileTree.key ((name ++ ".tmp") :: above) :=
    fun same => ne_beside name (List.cons.inj (FileTree.key_inj clean cleanBeside same)).1
  obtain ⟨written, moved, wrote, wroteAgain, removed⟩ := exists_of_save_complete saved
  rw [FileTree.pathOf_append] at wrote removed
  intro after
  obtain ⟨wellWritten, writtenFiles, _⟩ := wellFormed.write? wrote
  obtain ⟨wellMoved, movedFiles, _⟩ := wellWritten.write? wroteAgain
  rw [FileTree.stepsOf_pathOf cleanBeside] at writtenFiles
  rw [FileTree.stepsOf_pathOf clean, writtenFiles] at movedFiles
  have besideFound : moved.find (FileTree.pathOf ((name ++ ".tmp") :: above)) =
      .file ((name ++ ".tmp") :: above) ⟨text.toUTF8, now⟩ := by
    apply FileTree.find_pathOf wellMoved (by simp) cleanBeside
    rw [movedFiles, Std.ExtTreeMap.getElem?_insert,
      if_neg (mt Std.LawfulEqCmp.eq_of_compare apart), Std.ExtTreeMap.getElem?_insert_self]
  obtain ⟨wellAfter, afterFiles, _⟩ := wellMoved.remove? besideFound removed
  exact ⟨wellAfter, by rw [afterFiles, movedFiles]⟩

/-- The text is at its place, nothing is left beside it, and the other files are as before. -/
theorem getElem?_files_save (wellFormed : tree.WellFormed)
    (clean : ∀ step ∈ name :: above, Clean step)
    (saved : (save tree (FileTree.pathOf (name :: above)) text now).1 = .complete)
    {place : List String} (cleanPlace : ∀ step ∈ place, Clean step) :
    (save tree (FileTree.pathOf (name :: above)) text now).2.files[FileTree.key place]? =
      if place = (name ++ ".tmp") :: above then none
      else if place = name :: above then some ⟨text.toUTF8, now⟩
      else tree.files[FileTree.key place]? := by
  have keys : ∀ {other : List String}, (∀ step ∈ other, Clean step) →
      (compare (FileTree.key other) (FileTree.key place) = .eq ↔ place = other) := by
    intro other cleanOther
    rw [Std.LawfulEqCmp.compare_eq_iff_eq]
    exact ⟨fun same => FileTree.key_inj cleanPlace cleanOther same.symm, fun same => by rw [same]⟩
  rw [(files_save wellFormed clean saved).2, Std.ExtTreeMap.getElem?_erase,
    Std.ExtTreeMap.getElem?_insert, Std.ExtTreeMap.getElem?_insert]
  simp only [keys clean, keys (clean_beside clean)]
  by_cases beside : place = (name ++ ".tmp") :: above
  · simp only [beside, if_true]
  · simp only [beside, if_false]

end Files

/-- A file holds the text that was saved to it. -/
theorem read?_save {tree : FileTree} (wellFormed : tree.WellFormed) {place : List String}
    (nonempty : ¬ place = []) (clean : ∀ step ∈ place, Clean step) {text : String}
    {now : Timestamp} (saved : (save tree (FileTree.pathOf place) text now).1 = .complete) :
    (save tree (FileTree.pathOf place) text now).2.read? (FileTree.pathOf place) =
      some text.toUTF8 := by
  cases place with
  | nil => exact absurd rfl nonempty
  | cons name above =>
      have found : (save tree (FileTree.pathOf (name :: above)) text now).2.find
          (FileTree.pathOf (name :: above)) = .file (name :: above) ⟨text.toUTF8, now⟩ := by
        apply FileTree.find_pathOf (files_save wellFormed clean saved).1 (by simp) clean
        rw [getElem?_files_save wellFormed clean saved clean,
          if_neg fun same => ne_beside name (List.cons.inj same).1, if_pos rfl]
      rw [FileTree.read?, found]

/-! ## Entries -/

/-- The levels that are left for an entry: the document takes one, and so do its entries. -/
def entryDepth : Nat := maximalDepth - 2

section Entries

variable {α : Type} {encode : α → Json} {decode : Nat → Json → Option α}
  {entries : Std.ExtTreeMap String α}

/-- The parts of a document. -/
def parts (version : Nat) (encode : α → Json) (entries : Std.ExtTreeMap String α) :
    List (String × Option Json) :=
  [("version", some (.ofNat version)),
    ("entries", some (.record (entries.toList.map fun entry => (entry.1, encode entry.2))))]

/-- A document. -/
def value (version : Nat) (encode : α → Json) (entries : Std.ExtTreeMap String α) : Json :=
  .record (Json.written (parts version encode entries))

theorem text_eq_compact (version : Nat) :
    text version encode entries = (value version encode entries).compact := rfl

theorem whole_value (whole : ∀ entry ∈ entries.toList, (encode entry.2).Whole) (version : Nat) :
    (value version encode entries).Whole := by
  apply Json.whole_record_written
  simp only [parts, List.forall_mem_cons]
  exact ⟨Json.wholePart_some (Json.whole_ofNat _),
    Json.wholePart_some (Json.whole_record_map whole), by simp⟩

theorem fields?_value (version : Nat) :
    (value version encode entries).fields? ["version", "entries"] =
      some ((parts version encode entries).map (·.2)) :=
  Json.fields?_record_written (by simp [parts])

theorem decode?_value
    (readBack : ∀ entry ∈ entries.toList, decode entryDepth (encode entry.2) = some entry.2)
    (version : UInt32) :
    decode? decode (value version.toNat encode entries) = some (version, entries) := by
  have readEntries : Json.map? (decode (maximalDepth - 2))
      (.record (entries.toList.map fun entry => (entry.1, encode entry.2))) = some entries :=
    Json.map?_record readBack
  rw [maximalDepth] at readEntries
  simp [decode?, maximalDepth, fields?_value, parts, readEntries]

theorem entries?_text (whole : ∀ entry ∈ entries.toList, (encode entry.2).Whole)
    (readBack : ∀ entry ∈ entries.toList, decode entryDepth (encode entry.2) = some entry.2)
    (version wanted : UInt32) :
    entries? wanted.toNat decode (text version.toNat encode entries) =
      if version = wanted then some entries else none := by
  simp only [entries?, text_eq_compact, Json.read?_compact (whole_value whole _), Option.bind_some,
    decode?_value readBack, UInt32.toNat_inj]

/-- A file that holds a document gives its entries, but not as those of another version. -/
theorem load_of_read? (whole : ∀ entry ∈ entries.toList, (encode entry.2).Whole)
    (readBack : ∀ entry ∈ entries.toList, decode entryDepth (encode entry.2) = some entry.2)
    {tree : FileTree} {path : String} {version : UInt32}
    (found : tree.read? path = some (text version.toNat encode entries).toUTF8)
    (wanted : UInt32) :
    load tree path wanted.toNat decode = if version = wanted then entries else ∅ := by
  rw [load, found, Option.bind_some, Text.decode?_toUTF8, Option.bind_some,
    entries?_text whole readBack]
  by_cases same : version = wanted
  · simp only [if_pos same]
  · simp only [if_neg same]

/-- Entries that were saved are loaded again, but not as those of another version. -/
theorem load_save (whole : ∀ entry ∈ entries.toList, (encode entry.2).Whole)
    (readBack : ∀ entry ∈ entries.toList, decode entryDepth (encode entry.2) = some entry.2)
    {tree : FileTree} (wellFormed : tree.WellFormed) {place : List String}
    (nonempty : ¬ place = []) (clean : ∀ step ∈ place, Clean step) {version : UInt32}
    {now : Timestamp}
    (saved : (save tree (FileTree.pathOf place) (text version.toNat encode entries) now).1 =
      .complete) (wanted : UInt32) :
    load (save tree (FileTree.pathOf place) (text version.toNat encode entries) now).2
        (FileTree.pathOf place) wanted.toNat decode =
      if version = wanted then entries else ∅ :=
  load_of_read? whole readBack (read?_save wellFormed nonempty clean saved) wanted

end Entries

end Document

/-! ## Documents of an index -/

namespace State

theorem timeOfJson?_timeToJson (levels : Nat) (time : Timestamp) :
    timeOfJson? (levels + 1) (timeToJson time) = some time := by
  have fields : (timeToJson time).fields? ["lastIndexed"] = some [some (.ofInt time.toInt)] :=
    @Json.fields?_record_written [("lastIndexed", some (.ofInt time.toInt))] (by simp)
  simp [timeOfJson?, fields]

theorem whole_timeToJson (time : Timestamp) : (timeToJson time).Whole := by
  apply Json.whole_record
  intro member inside
  rw [List.mem_singleton.mp inside]
  exact .integer time.toInt

/-- What is saved as a document is loaded as it was, and nothing is loaded of a document of another
version: the times of clean files, records whose symbols have members up to sixty levels deep, and
fingerprints. Records that are made of files go one level deep. -/
theorem documents_restored {tree : FileTree} (wellFormed : tree.WellFormed) {place : List String}
    (nonempty : ¬ place = []) (clean : ∀ step ∈ place, Clean step) (version wanted : UInt32)
    (now : Timestamp) :
    (∀ times : Std.ExtTreeMap String Timestamp,
      let saved := Document.save tree (FileTree.pathOf place)
        (Document.text version.toNat timeToJson times) now
      saved.1 = .complete →
        Document.load saved.2 (FileTree.pathOf place) wanted.toNat timeOfJson? =
          if version = wanted then times else ∅) ∧
    (∀ (records : Std.ExtTreeMap String Record) (depth : Nat), depth ≤ 60 →
      (∀ entry ∈ records.toList, ∀ symbol ∈ entry.2.symbols, symbol.Nested depth) →
      let saved := Document.save tree (FileTree.pathOf place)
        (Document.text version.toNat Record.toJson records) now
      saved.1 = .complete →
        Document.load saved.2 (FileTree.pathOf place) wanted.toNat Record.ofJson? =
          if version = wanted then records else ∅) ∧
    (∀ fingerprints : Std.ExtTreeMap String String,
      let saved := Document.save tree (FileTree.pathOf place)
        (Document.text version.toNat Json.ofText fingerprints) now
      saved.1 = .complete →
        Document.load saved.2 (FileTree.pathOf place) wanted.toNat fingerprintOfJson? =
          if version = wanted then fingerprints else ∅) ∧
    ∀ path bytes time, ∀ symbol ∈ (Record.ofBytes path bytes time).symbols, symbol.Nested 1 := by
  refine ⟨?times, ?records, ?fingerprints, Record.nested_ofBytes⟩
  case times =>
    intro times saved complete
    exact Document.load_save (fun entry _ => whole_timeToJson entry.2)
      (fun entry _ => timeOfJson?_timeToJson 124 entry.2) wellFormed nonempty clean complete wanted
  case records =>
    intro records depth shallow nested saved complete
    have enough : 2 * depth + 5 ≤ Document.entryDepth := by
      rw [Document.entryDepth, Document.maximalDepth]
      omega
    exact Document.load_save (fun entry _ => entry.2.whole_toJson)
      (fun entry member => Record.ofJson?_toJson (nested entry member) enough)
      wellFormed nonempty clean complete wanted
  case fingerprints =>
    intro fingerprints saved complete
    exact Document.load_save (fun entry _ => Json.whole_ofText entry.2)
      (fun entry _ => Json.text?_ofText entry.2) wellFormed nonempty clean complete wanted

/-- A record with marks that have no names, texts that need escapes, and parts left out. -/
def sampleRecord : Record :=
  { path := "src/\x22a\x22.ts"
    fingerprint := "00"
    lastIndexed := -1
    symbols :=
      [{ name := "Größe\n"
         kind := .classType
         line := 1
         endLine := 4294967295
         flags := ⟨0xf9⟩
         methods :=
           [{ name := "run"
              kind := .method
              line := 2
              endLine := 3
              params := [⟨"key", some "string"⟩, ⟨"rest", none⟩]
              calls := ["stop"] }] }]
    imports :=
      [{ source := "./b", names := ["open"], line := 1, aliases := (∅ : Std.ExtTreeMap _ _).insert
          "start" "open" }]
    exports := [{ name := "x", kind := .reexport, line := 5, source := some "./c" }] }

def sampleRecords : Std.ExtTreeMap String Record :=
  (∅ : Std.ExtTreeMap String Record).insert "src/\x22a\x22.ts" sampleRecord

theorem nested_sampleRecords :
    ∀ entry ∈ sampleRecords.toList, ∀ symbol ∈ entry.2.symbols, symbol.Nested 1 := by
  have listed : sampleRecords.toList = [("src/\x22a\x22.ts", sampleRecord)] := rfl
  simp [listed, sampleRecord, Symbol.Nested]

theorem sampleRecords_restored :
    (∀ entry ∈ sampleRecords.toList, ∀ symbol ∈ entry.2.symbols, symbol.Nested 1) ∧
      let saved := Document.save FileTree.empty (FileTree.pathOf ["records.json", "state"])
        (Document.text 1 Record.toJson sampleRecords) 0
      saved.1 = .complete ∧
        Document.load saved.2 (FileTree.pathOf ["records.json", "state"]) 1 Record.ofJson? =
          sampleRecords ∧
        Document.load saved.2 (FileTree.pathOf ["records.json", "state"]) 2 Record.ofJson? = ∅ := by
  have clean : ∀ step ∈ ["records.json", "state"], Clean step := by
    rw [List.forall_mem_cons, List.forall_mem_singleton]
    exact ⟨⟨by decide, by decide, by decide, by decide⟩,
      ⟨by decide, by decide, by decide, by decide⟩⟩
  have complete : (Document.save FileTree.empty (FileTree.pathOf ["records.json", "state"])
      (Document.text 1 Record.toJson sampleRecords) 0).1 = .complete := by
    decide +kernel
  have restored := fun wanted =>
    (documents_restored FileTree.wellFormed_empty (by decide) clean 1 wanted 0).2.1 sampleRecords 1
      (by decide) nested_sampleRecords complete
  exact ⟨nested_sampleRecords, complete, restored 1, restored 2⟩

end State

end CodeIndex
