/-
  AccessControl/Store/Location.lean
  =================================
  **Where objects are.**

  A path is a text with names between slashes.  Two paths lead to the same place
  when they agree on whether they start at the root and on the names: repeated
  and trailing slashes do not count, and neither does a single dot, unless a path
  that does not start at the root starts with it.  Two dots are a name like any
  other.
-/

namespace AccessControl

/-- The place that a path leads to. -/
structure Location where
  rooted : Bool
  names : List (List Char)
deriving DecidableEq

namespace Location

/-- The piece that stands for the place itself. -/
def here : List Char := ['.']

/-- The piece is a name on the way. -/
def isName (piece : List Char) : Bool := piece ≠ [] && piece ≠ here

/-- The place that a path leads to. -/
def ofPath (path : String) : Location :=
  let pieces := path.toList.splitOn '/'
  let start := if pieces.head? = some here then [here] else []
  { rooted := path.toList.head? = some '/', names := start ++ pieces.filter isName }

end Location

end AccessControl
