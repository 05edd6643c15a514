import CodeIndex.Search.Index

/-!
Contract: chunks ranked by how well they match a query.

Owns:
- `Index.weight`: how much a term tells, less the more chunks have it;
- `Index.withWeights`: the index with the weights of all terms, as a search leaves it behind;
- `Index.queryIn`: the terms of a query with their weights, in a given order;
- `Index.score?`: the cosine of the angle between query and chunk;
- `Index.searchIn`, `Index.search`: the best chunks.

The order of a query's terms matters only to the sum behind the length of the query, since sums of
rounded numbers depend on the order of their parts. No order is laid down for it: a search may take
any. `Index.search` takes the order of the first occurrences.
-/

set_option autoImplicit false

namespace CodeIndex.Search

/-- A chunk that matches a query. -/
structure Hit where
  chunk : Chunk
  score : Float

namespace Index

/-- The number of chunks that have a term. -/
def frequency (index : Index) (term : String) : Nat :=
  (index.postings.getD term []).length

/-- The logarithm of the inverse frequency, smoothed so that it is defined and positive for every
frequency. -/
def inverseFrequency (index : Index) (frequency : Nat) : Float :=
  Float.log ((Float.ofNat index.chunks.size + 1.0) / (Float.ofNat frequency + 1.0)) + 1.0

/-- How much a term tells that so many chunks have. Stop words are scaled down. -/
def weightFor (index : Index) (term : String) (frequency : Nat) : Float :=
  let base := index.inverseFrequency frequency
  if isStopWord term then base * index.stopWordWeight else base

/-- The weights of all terms that chunks have. -/
def computeWeights (index : Index) : Std.ExtTreeMap String Float :=
  index.postings.map fun term _ => index.weightFor term (index.frequency term)

/-- The weights that are kept, or else the computed ones. -/
def currentWeights (index : Index) : Std.ExtTreeMap String Float :=
  index.weights.getD index.computeWeights

/-- Keeps the weights of all terms. -/
def withWeights (index : Index) : Index :=
  { index with weights := some index.currentWeights }

/-- How much a term of a query tells. One that no chunk has weighs most. -/
def weight (index : Index) (term : String) : Float :=
  index.currentWeights[term]?.getD (index.weightFor term 0)

/-- How much a term of a chunk tells. -/
def tokenWeight (index : Index) (token : String) : Float :=
  index.currentWeights[token]?.getD 0.0

/-- The distinct terms of a query, in the order of their first occurrences. -/
def queryTerms (text : String) : List String :=
  distinctFrom [] (terms text)

/-- Terms of a query in a given order, each with its weight times the number of its occurrences. -/
def queryIn (index : Index) (text : String) (order : List String) : List (String × Float) :=
  order.map fun term => (term, Float.ofNat ((terms text).count term) * index.weight term)

/-- The sum of the squares of numbers. -/
def sumOfSquares (weights : List Float) : Float :=
  weights.foldl (fun sum weight => sum + weight * weight) 0.0

/-- The length of a vector. -/
def norm (weights : List Float) : Float :=
  Float.sqrt (sumOfSquares weights)

/-- The numbers of the chunks that share a term with a query, in ascending order. -/
def candidates (index : Index) (query : List (String × Float)) : List Nat :=
  (List.range index.chunks.size).filter fun place =>
    query.any fun entry => (index.postings.getD entry.1 []).contains place

/-- The product of a query and a chunk: of the weights of the terms that they share. -/
def product (index : Index) (query : List (String × Float)) (chunk : Chunk) : Float :=
  chunk.tokens.foldl
    (fun sum token =>
      match query.lookup token with
      | some wanted => sum + wanted * index.tokenWeight token
      | none => sum)
    0.0

/-- The score of a chunk, if it matches at all. -/
def score? (index : Index) (query : List (String × Float)) (queryNorm : Float) (chunk : Chunk) :
    Option Float :=
  let squares := sumOfSquares (chunk.tokens.map index.tokenWeight)
  let product := index.product query chunk
  if product <= 0.0 || squares <= 0.0 then
    none
  else
    some (product / (queryNorm * Float.sqrt squares))

/-- Whether a hit comes before another: by score, then by name. -/
def hitBefore (left right : Hit) : Bool :=
  if left.score > right.score then true
  else if left.score < right.score then false
  else left.chunk.id ≤ right.chunk.id

/-- All hits of a query, the best first. -/
def hits (index : Index) (query : List (String × Float)) : List Hit :=
  let queryNorm := norm (query.map (·.2))
  if queryNorm == 0.0 then
    []
  else
    let found := (index.candidates query).filterMap fun place =>
      match index.chunks[place]? with
      | some chunk => (index.score? query queryNorm chunk).map fun score => ⟨chunk, score⟩
      | none => none
    found.mergeSort hitBefore

/-- Whether a search can find anything. -/
def isSearch (text : String) (limit : Nat) : Bool :=
  !(terms text).isEmpty && limit != 0

/-- The best chunks for a query, its terms taken in a given order. -/
def searchIn (index : Index) (text : String) (order : List String) (limit : Nat) : List Hit :=
  if isSearch text limit then
    (index.withWeights.hits (index.withWeights.queryIn text order)).take limit
  else
    []

/-- The best chunks for a query. -/
def search (index : Index) (text : String) (limit : Nat) : List Hit :=
  index.searchIn text (queryTerms text) limit

/-- The index as a search leaves it behind. -/
def afterSearch (index : Index) (text : String) (limit : Nat) : Index :=
  if isSearch text limit then index.withWeights else index

end Index

end CodeIndex.Search
