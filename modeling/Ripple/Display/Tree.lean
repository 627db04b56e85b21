import Ripple.Text.Search

/-!
# Ripple.Display.Tree

The parts of a drawn tree, and paths short enough to stand in it.
-/

namespace Ripple.Display

/-- The connector in front of an item. -/
def branch (last : Bool) : String := if last then "└──" else "├──"

/-- What stands below the connector of an item, in front of its own items. -/
def indent (last : Bool) : String := if last then "    " else "│   "

/-- The last two components of a path; a path of at most two stays as it is. -/
def shortPath (path : String) : String :=
  let parts := Text.splitOn '/' path
  if parts.length ≤ 2 then path else Text.join "/" (parts.drop (parts.length - 2))

/-- Each item with whether it is the last. -/
def withLast : List α → List (α × Bool)
  | [] => []
  | [a] => [(a, true)]
  | a :: b :: rest => (a, false) :: withLast (b :: rest)

/-- The texts of some items, one after the other. -/
def concat (f : α → String) : List α → String
  | [] => ""
  | a :: rest => f a ++ concat f rest

end Ripple.Display
