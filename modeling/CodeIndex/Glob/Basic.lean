/-!
Contract: wildcard patterns for paths.

Owns:
- `Glob.Token`: the pieces of a pattern;
- `Glob`: a pattern, and whether its wildcards stop at slashes.

Does not own: how patterns are written, what they match.
-/

set_option autoImplicit false

namespace CodeIndex

/-- A piece of a pattern. -/
inductive Glob.Token where
  | literal (character : Char)
  /-- One byte. -/
  | one
  /-- Any number of bytes. -/
  | many
  /-- A byte in one of the ranges, or in none of them. -/
  | oneOf (negated : Bool) (ranges : List (Char × Char))
  /-- Any directories at the beginning, or none. -/
  | leading
  /-- A slash and everything after it. -/
  | trailing
  /-- A slash, or directories with slashes around. -/
  | between
  /-- One of several patterns. -/
  | alternates (branches : List (List Glob.Token))

/-- A pattern for paths. -/
structure Glob where
  tokens : List Glob.Token
  /-- Whether single wildcards stop at slashes. -/
  stopsAtSlash : Bool := false

end CodeIndex
