import CodeIndex.Graph.Update
import CodeIndex.Proofs.Search.Postings

/-!
Contract: the terms of a text are those of its parts, so a symbol is found by each of its texts.

Owns:
- `Search.terms_append`: no term reaches across a separator;
- `Search.flatten_splitCase`: the parts of a word are the word;
- `Search.tokens_eq_eraseDups`: tokens are terms without repetitions;
- `Search.Describes`: the texts of a symbol or a member;
- `Search.Index.symbols_found_by_texts`: each of them leads to the symbol in every index.

Does not own: which characters are letters, digits or capitals. Nothing but the blank, which joins
the texts of a symbol, is looked up in the tables.
-/

set_option autoImplicit false

namespace CodeIndex.Search

/-! ## Rows of word characters -/

theorem rows_ne_nil (characters : List Char) : ¬ rows characters = [] := by
  cases characters with
  | nil => simp [rows]
  | cons first rest =>
      rw [rows]
      split
      · cases rows rest <;> simp [extendFirst]
      · simp

/-- The first row of several is extended without a look at the others. -/
theorem extendFirst_append (character : Char) {parts : List (List Char)} (some : ¬ parts = [])
    (more : List (List Char)) :
    extendFirst character (parts ++ more) = extendFirst character parts ++ more := by
  cases parts with
  | nil => exact absurd rfl some
  | cons first rest => rfl

theorem rows_append {separator : Char} (separates : isWordCharacter separator = false)
    (before after : List Char) :
    rows (before ++ separator :: after) = rows before ++ rows after := by
  induction before with
  | nil => simp [rows, separates]
  | cons first rest inductionHypothesis =>
      rw [List.cons_append, rows, rows, inductionHypothesis]
      split
      · exact extendFirst_append first (rows_ne_nil rest) (rows after)
      · rfl

theorem rows_of_word {word : List Char}
    (isWord : ∀ character ∈ word, isWordCharacter character = true) : rows word = [word] := by
  induction word with
  | nil => rfl
  | cons first rest inductionHypothesis =>
      obtain ⟨starts, goesOn⟩ := List.forall_mem_cons.mp isWord
      rw [rows, if_pos starts, inductionHypothesis goesOn, extendFirst]

theorem words_append {separator : Char} (separates : isWordCharacter separator = false)
    (before after : String) :
    words (before ++ String.singleton separator ++ after) = words before ++ words after := by
  have joined : (before ++ String.singleton separator ++ after).toList =
      before.toList ++ separator :: after.toList := by
    simp [String.toList_append]
  rw [words, joined, rows_append separates, List.filter_append, words, words]

/-! ## Parts of a word -/

theorem flatten_extendFirst (character : Char) (parts : List (List Char)) :
    (extendFirst character parts).flatten = character :: parts.flatten := by
  cases parts <;> rfl

theorem ne_nil_of_mem_extendFirst {character : Char} {parts : List (List Char)}
    (filled : ∀ part ∈ parts, ¬ part = []) :
    ∀ part ∈ extendFirst character parts, ¬ part = [] := by
  cases parts with
  | nil => simp [extendFirst]
  | cons first rest =>
      intro part member
      rcases List.mem_cons.mp member with rfl | later
      · simp
      · exact filled part (List.mem_cons_of_mem first later)

theorem flatten_splitCaseFrom (before : Char) (rest : List Char) :
    (splitCaseFrom before rest).flatten = before :: rest := by
  induction rest generalizing before with
  | nil => rfl
  | cons next others inductionHypothesis =>
      rw [splitCaseFrom]
      split
      · rw [List.flatten_cons, inductionHypothesis]
        rfl
      · rw [flatten_extendFirst, inductionHypothesis]

theorem ne_nil_of_mem_splitCaseFrom (before : Char) (rest : List Char) :
    ∀ part ∈ splitCaseFrom before rest, ¬ part = [] := by
  induction rest generalizing before with
  | nil => simp [splitCaseFrom]
  | cons next others inductionHypothesis =>
      rw [splitCaseFrom]
      split
      · exact List.forall_mem_cons.mpr ⟨by simp, inductionHypothesis next⟩
      · exact ne_nil_of_mem_extendFirst (inductionHypothesis next)

/-- The parts of a word, one after the other, are the word. -/
theorem flatten_splitCase (word : List Char) : (splitCase word).flatten = word := by
  cases word with
  | nil => rfl
  | cons first rest => exact flatten_splitCaseFrom first rest

theorem ne_nil_of_mem_splitCase {word part : List Char} (member : part ∈ splitCase word) :
    ¬ part = [] := by
  cases word with
  | nil => simp [splitCase] at member
  | cons first rest => exact ne_nil_of_mem_splitCaseFrom first rest part member

/-! ## Terms -/

/-- The terms of a row of word characters. -/
def wordTerms (word : List Char) : List String :=
  ((splitCase word).map fun part => Text.toLower (String.ofList part)).filter
    fun term => shortestTerm ≤ term.length

/-- Each word gives its terms by itself. -/
theorem terms_eq (text : String) : terms text = (words text).flatMap wordTerms := by
  rw [terms, List.map_flatMap, List.filter_flatMap]
  rfl

/-- No term reaches across a separator. -/
theorem terms_append {separator : Char} (separates : isWordCharacter separator = false)
    (before after : String) :
    terms (before ++ String.singleton separator ++ after) = terms before ++ terms after := by
  rw [terms_eq, words_append separates, List.flatMap_append, ← terms_eq, ← terms_eq]

theorem terms_of_word {word : List Char}
    (isWord : ∀ character ∈ word, isWordCharacter character = true) :
    terms (String.ofList word) = wordTerms word := by
  rw [terms_eq, words, String.toList_ofList, rows_of_word isWord]
  cases word with
  | nil => rfl
  | cons first rest => simp

theorem terms_empty : terms "" = [] := rfl

theorem terms_join (texts : List String) :
    terms (Text.join " " texts) = texts.flatMap terms := by
  have separates : isWordCharacter ' ' = false := by decide
  fun_induction Text.join " " texts with
  | case1 => exact terms_empty
  | case2 text => simp
  | case3 text rest _ inductionHypothesis =>
      rw [List.flatMap_cons, ← inductionHypothesis]
      exact terms_append separates text _

/-! ## Tokens -/

theorem distinctFrom_eq_eraseDups (seen items : List String) :
    distinctFrom seen items = (items.filter fun item => !seen.contains item).eraseDups := by
  fun_induction distinctFrom seen items with
  | case1 => rfl
  | case2 seen item rest known inductionHypothesis =>
      rw [inductionHypothesis, List.filter_cons_of_neg (by simpa using known)]
  | case3 seen item rest fresh inductionHypothesis =>
      have split : (rest.filter fun later => !(item :: seen).contains later) =
          (rest.filter fun later => !seen.contains later).filter fun later => !later == item := by
        rw [List.filter_filter]
        apply List.filter_congr
        intro later _
        rw [List.contains_cons, Bool.not_or]
      rw [List.filter_cons_of_pos (by simpa using fresh), List.eraseDups_cons,
        inductionHypothesis, split]

/-- Tokens are terms without the later of equal ones. -/
theorem tokens_eq_eraseDups (text : String) : tokens text = (terms text).eraseDups := by
  have all : ((terms text).filter fun item => !([] : List String).contains item) = terms text :=
    List.filter_eq_self.mpr (by simp)
  rw [tokens, distinctFrom_eq_eraseDups, all]

theorem mem_tokens (text term : String) : term ∈ tokens text ↔ term ∈ terms text := by
  rw [tokens, mem_distinctFrom]
  simp

/-! ## Texts of a symbol -/

/-- The texts that say what a symbol is, or a member of an owner: its name and kind, the names and
types of its parameters, the type it returns, the owner's name and the path of its file. -/
inductive Describes (path : String) (symbol : Symbol) (parent : Option Symbol) :
    String → Prop where
  | name : Describes path symbol parent symbol.name
  | kind : Describes path symbol parent symbol.kind.name
  | paramName (param : Param) (member : param ∈ symbol.params) :
      Describes path symbol parent param.name
  | paramType (param : Param) (member : param ∈ symbol.params) (written : String)
      (typed : param.typeText = some written) : Describes path symbol parent written
  | returnType (written : String) (typed : symbol.returnType = some written) :
      Describes path symbol parent written
  | owner (owner : Symbol) (owned : parent = some owner) :
      Describes path symbol parent owner.name
  | path : Describes path symbol parent path

theorem mem_symbolTexts (path : String) (symbol : Symbol) (parent : Option Symbol)
    (text : String) :
    text ∈ symbolTexts path symbol parent ↔ Describes path symbol parent text := by
  simp only [symbolTexts, List.mem_append, List.mem_cons, List.not_mem_nil, or_false,
    List.mem_flatMap, Option.mem_toList, Option.map_eq_some_iff]
  constructor
  · rintro (((((rfl | rfl) | ⟨param, member, rfl | typed⟩) | typed) | ⟨owner, owned, rfl⟩) | rfl)
    · exact .name
    · exact .kind
    · exact .paramName param member
    · exact .paramType param member text typed
    · exact .returnType text typed
    · exact .owner owner owned
    · exact .path
  · intro describes
    cases describes with
    | name => simp
    | kind => simp
    | paramName param member => exact .inl (.inl (.inl (.inr ⟨param, member, .inl rfl⟩)))
    | paramType param member _ typed => exact .inl (.inl (.inl (.inr ⟨param, member, .inr typed⟩)))
    | returnType _ typed => exact .inl (.inl (.inr typed))
    | owner owner owned => exact .inl (.inr ⟨owner, owned, rfl⟩)
    | path => exact .inr rfl

/-- The tokens of a symbol are the terms of its texts. -/
theorem mem_tokens_symbolChunk (path : String) (symbol : Symbol) (parent : Option Symbol)
    (term : String) :
    term ∈ (symbolChunk path symbol parent).tokens ↔
      ∃ text, Describes path symbol parent text ∧ term ∈ terms text := by
  simp only [symbolChunk, mem_tokens, terms_join, List.mem_flatMap, mem_symbolTexts]

/-- The symbols and members of a record have their chunks in order of declaration. -/
theorem chunksOfSymbols_eq (path : String) (symbols : List Symbol) :
    symbols.flatMap (chunksOfSymbol path) =
      (Graph.declarations symbols).map fun entry => symbolChunk path entry.1 entry.2 := by
  rw [Graph.declarations, List.map_flatMap]
  congr 1
  funext symbol
  simp [chunksOfSymbol]

/-- A chunk with a kind is that of a symbol or a member. -/
theorem exists_declaration_of_mem_chunksOf {record : Record} {chunk : Chunk}
    (member : chunk ∈ chunksOf record) (isSymbol : chunk.kind.isSome = true) :
    ∃ entry ∈ Graph.declarations record.symbols,
      chunk = symbolChunk record.path entry.1 entry.2 := by
  unfold chunksOf at member
  split at member
  · rw [List.mem_singleton.mp member] at isSymbol
    simp [fileChunk] at isSymbol
  · rw [chunksOfSymbols_eq] at member
    obtain ⟨entry, declared, rfl⟩ := List.mem_map.mp member
    exact ⟨entry, declared, rfl⟩

namespace Index

/-! ## Symbols of an index -/

/-- Every chunk is one of a record that was put in. -/
def DrawnFrom (changes : List Change) (index : Index) : Prop :=
  ∀ chunk ∈ index.chunks, ∃ record, Change.update record ∈ changes ∧ chunk ∈ chunksOf record

theorem DrawnFrom.remove {changes : List Change} {index : Index}
    (drawn : index.DrawnFrom changes) (path : String) : (index.remove path).DrawnFrom changes := by
  intro chunk member
  rw [← Array.mem_toList_iff, chunks_remove, List.mem_filter, Array.mem_toList_iff] at member
  exact drawn chunk member.1

theorem DrawnFrom.applyTo {changes : List Change} {index : Index}
    (drawn : index.DrawnFrom changes) {change : Change} (made : change ∈ changes) :
    (Change.applyTo index change).DrawnFrom changes := by
  cases change with
  | remove path => exact drawn.remove path
  | search text limit =>
      obtain ⟨weights, frame⟩ := index.afterSearch_frame text limit
      rw [Change.applyTo, frame]
      exact drawn
  | update record =>
      rw [Change.applyTo]
      by_cases skipped : index.fingerprints[record.path]? = some record.fingerprint ∧
          index.containsFile record.path = true
      · rw [update_of_known skipped]
        exact drawn
      · rw [update_eq skipped]
        intro chunk member
        have member : chunk ∈ ((chunksOf record).foldl addChunk
            (index.remove record.path)).chunks.toList := Array.mem_toList_iff.mpr member
        rw [chunks_foldl_addChunk, List.mem_append, Array.mem_toList_iff] at member
        rcases member with old | new
        · exact drawn.remove record.path chunk old
        · exact ⟨record, made, new⟩

theorem drawnFrom_run (stopWordWeight : Float) (fingerprints : Std.ExtTreeMap String String)
    (changes : List Change) : (run stopWordWeight fingerprints changes).DrawnFrom changes := by
  refine List.foldlRecOn (motive := DrawnFrom changes) changes _ ?_
    fun _ drawn _ made => drawn.applyTo made
  intro chunk member
  simp [empty] at member

/-- No term reaches across a separator, the parts of a word are the word, and tokens are terms
without repetitions. So the tokens of a symbol are the terms of its texts. In every index, the
chunks with a kind are those of symbols and members of records that were put in, and each text of
such a symbol that has a term at all leads to its chunk. -/
theorem symbols_found_by_texts :
    (∀ (before after : String) (separator : Char), isWordCharacter separator = false →
      terms (before ++ String.singleton separator ++ after) = terms before ++ terms after) ∧
    (∀ word : List Char, (∀ character ∈ word, isWordCharacter character = true) →
      (∀ part ∈ splitCase word, ¬ part = []) ∧ (splitCase word).flatten = word ∧
      terms (String.ofList word) =
        ((splitCase word).map fun part => Text.toLower (String.ofList part)).filter
          fun term => shortestTerm ≤ term.length) ∧
    (∀ text : String, tokens text = (terms text).eraseDups) ∧
    (∀ (path : String) (symbol : Symbol) (parent : Option Symbol) (term : String),
      term ∈ (symbolChunk path symbol parent).tokens ↔
        ∃ text, Describes path symbol parent text ∧ term ∈ terms text) ∧
    ∀ (stopWordWeight : Float) (fingerprints : Std.ExtTreeMap String String)
      (changes : List Change) (place : Nat) (chunk : Chunk),
      (run stopWordWeight fingerprints changes).chunks[place]? = some chunk →
        (chunk.kind.isSome = true → ∃ record, Change.update record ∈ changes ∧
          ∃ entry ∈ Graph.declarations record.symbols,
            chunk = symbolChunk record.path entry.1 entry.2) ∧
        ∀ (path : String) (symbol : Symbol) (parent : Option Symbol) (text : String),
          chunk = symbolChunk path symbol parent → Describes path symbol parent text →
          ¬ terms text = [] → ∀ order, order.Perm (queryTerms text) →
            place ∈ (run stopWordWeight fingerprints changes).candidates
              ((run stopWordWeight fingerprints changes).queryIn text order) := by
  refine ⟨fun before after _ separates => terms_append separates before after, ?_,
    tokens_eq_eraseDups, mem_tokens_symbolChunk, ?_⟩
  · intro word isWord
    exact ⟨fun _ => ne_nil_of_mem_splitCase, flatten_splitCase word, terms_of_word isWord⟩
  · intro stopWordWeight fingerprints changes place chunk found
    constructor
    · intro isSymbol
      obtain ⟨record, made, member⟩ := drawnFrom_run stopWordWeight fingerprints changes chunk
        (Array.mem_of_getElem? found)
      exact ⟨record, made, exists_declaration_of_mem_chunksOf member isSymbol⟩
    · rintro path symbol parent text rfl describes some order permuted
      obtain ⟨term, inText⟩ := List.exists_mem_of_ne_nil _ some
      have posted := (run_sound stopWordWeight fingerprints changes).1
      refine (posted.mem_candidates permuted place).mpr ⟨_, found, term, inText, ?_⟩
      exact (mem_tokens_symbolChunk path symbol parent term).mpr ⟨text, describes, inText⟩

def sampleMethod : Symbol :=
  { name := "getHTTPResponse"
    kind := .method
    line := 2
    endLine := 4
    params := [{ name := "url", typeText := some "URLPattern" }]
    returnType := some "Promise<Étag>" }

def sampleClass : Symbol :=
  { name := "Client", kind := .classType, line := 1, endLine := 5, methods := [sampleMethod] }

def sampleClient : Record :=
  { path := "net/client.ts", fingerprint := "1", lastIndexed := 0, symbols := [sampleClass] }

/-- A member is found by the type that it returns. -/
theorem sampleMethod_found_by_type :
    (run 0.1 ∅ [.update sampleClient]).chunks[1]? =
        some (symbolChunk "net/client.ts" sampleMethod (some sampleClass)) ∧
      terms "Promise<Étag>" = ["promise", "étag"] ∧
      1 ∈ (run 0.1 ∅ [.update sampleClient]).candidates
        ((run 0.1 ∅ [.update sampleClient]).queryIn "Promise<Étag>" ["étag", "promise"]) := by
  have parts : terms "Promise<Étag>" = ["promise", "étag"] := by decide +kernel
  have fresh : ¬ ((empty 0.1).fingerprints["net/client.ts"]? = some "1" ∧
      (empty 0.1).containsFile "net/client.ts" = true) := by
    simp [empty]
  have found : (run 0.1 ∅ [.update sampleClient]).chunks[1]? =
      some (symbolChunk "net/client.ts" sampleMethod (some sampleClass)) := by
    rw [run, List.foldl_cons, List.foldl_nil, Change.applyTo, update_eq fresh,
      ← Array.getElem?_toList, chunks_foldl_addChunk, chunks_remove]
    rfl
  have described : Describes "net/client.ts" sampleMethod (some sampleClass) "Promise<Étag>" :=
    .returnType "Promise<Étag>" rfl
  have swapped : ["étag", "promise"].Perm (queryTerms "Promise<Étag>") := by
    rw [queryTerms, parts]
    exact List.Perm.swap "promise" "étag" []
  refine ⟨found, parts, ?_⟩
  exact (symbols_found_by_texts.2.2.2.2 0.1 ∅ [.update sampleClient] 1
    (symbolChunk "net/client.ts" sampleMethod (some sampleClass)) found).2 "net/client.ts"
    sampleMethod (some sampleClass) "Promise<Étag>" rfl described (by simp [parts])
    ["étag", "promise"] swapped

end Index

end CodeIndex.Search
