import CodeIndex.Search.Chunk
import Std.Data.ExtTreeMap

/-!
Contract: the chunks of all files, found by their terms.

Owns:
- `Index`: chunks in one row, with the places of each term;
- `Index.remove`, `Index.update`: the chunks of one file taken out or replaced.

Does not own: how chunks are ranked.

The places of a term are the numbers of the chunks that have it, in ascending order. A term that no
chunk has is not kept. The weights of the terms are kept from one search to the next, and dropped
whenever chunks are taken out or added.
-/

set_option autoImplicit false

namespace CodeIndex.Search

/-- The chunks of all files. -/
structure Index where
  chunks : Array Chunk := #[]
  /-- The places of each term in `chunks`. -/
  postings : Std.ExtTreeMap String (List Nat) := ∅
  /-- The fingerprints of the records that the chunks were made from, by path. -/
  fingerprints : Std.ExtTreeMap String String := ∅
  /-- How much a stop word weighs. -/
  stopWordWeight : Float
  /-- The weights of all terms, once a search has needed them. -/
  weights : Option (Std.ExtTreeMap String Float) := none

namespace Index

/-- An index without chunks. The fingerprints of an earlier run may be known. -/
def empty (stopWordWeight : Float) (fingerprints : Std.ExtTreeMap String String := ∅) : Index :=
  { stopWordWeight := stopWordWeight, fingerprints := fingerprints }

def containsFile (index : Index) (path : String) : Bool :=
  index.chunks.any fun chunk => chunk.path == path

/-- Where each chunk moves when those of a file are taken out. -/
def remap (path : String) (next : Nat) : List Chunk → List (Option Nat)
  | [] => []
  | chunk :: rest =>
      if chunk.path == path then
        none :: remap path next rest
      else
        some next :: remap path (next + 1) rest

/-- Places after chunks have moved; places of chunks that are gone are dropped. -/
def movePlaces (moves : Array (Option Nat)) (places : List Nat) : List Nat :=
  places.filterMap fun place => (moves[place]?).join

/-- Takes out the chunks of a file; those after them move up. -/
def remove (index : Index) (path : String) : Index :=
  let fingerprints := index.fingerprints.erase path
  if index.containsFile path then
    let moves := (remap path 0 index.chunks.toList).toArray
    { index with
      chunks := index.chunks.filter fun chunk => chunk.path != path
      postings :=
        (index.postings.map fun _ places => movePlaces moves places).filter
          fun _ places => !places.isEmpty
      fingerprints := fingerprints
      weights := none }
  else
    { index with fingerprints := fingerprints }

/-- Adds a place to a term. -/
def addPlace (postings : Std.ExtTreeMap String (List Nat)) (place : Nat) (term : String) :
    Std.ExtTreeMap String (List Nat) :=
  postings.insert term (postings.getD term [] ++ [place])

/-- Adds a chunk at the end. -/
def addChunk (index : Index) (chunk : Chunk) : Index :=
  { index with
    chunks := index.chunks.push chunk
    postings :=
      chunk.tokens.foldl (fun postings term => addPlace postings index.chunks.size term)
        index.postings }

/-- Replaces the chunks of a record's file, and says whether anything had to be done. -/
def update (index : Index) (record : Record) : Bool × Index :=
  if index.fingerprints[record.path]? == some record.fingerprint &&
      index.containsFile record.path then
    (false, index)
  else
    let added := (chunksOf record).foldl addChunk (index.remove record.path)
    (true,
      { added with
        fingerprints := added.fingerprints.insert record.path record.fingerprint
        weights := none })

end Index

end CodeIndex.Search
