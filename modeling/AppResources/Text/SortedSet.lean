/-!
# Sorted sets of texts

Sets of texts as strictly ascending lists, in the order of code points.
-/

namespace AppResources.Text

/-- Adds a text to a sorted set. -/
def insertSorted (s : String) : List String → List String
  | [] => [s]
  | t :: rest => if s < t then s :: t :: rest else if s = t then t :: rest
    else t :: insertSorted s rest

/-- The sorted set of the texts of a list. -/
def sortedSet (texts : List String) : List String :=
  texts.foldl (fun found s => insertSorted s found) []

end AppResources.Text
