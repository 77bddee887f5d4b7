/-
The order of paths: component by component, so that a directory stands in front of everything in
it and `a/b` in front of `a-b`.

* `Path.Component.compare`, `Path.compare`: the order;
* `Path.sort`: a list of paths in this order.
-/
import ImageMigration.Path

namespace ImageMigration.Path

/-- The order of texts by code points, which is also that of their bytes. -/
def compareText : Text → Text → Ordering
  | [], [] => .eq
  | [], _ :: _ => .lt
  | _ :: _, [] => .gt
  | a :: s, b :: t => (compareOfLessAndEq a.toNat b.toNat).then (compareText s t)

/-- The rank of the kinds of steps. -/
def Component.rank : Component → Nat
  | root => 0
  | current => 1
  | parent => 2
  | name _ => 3

/-- The order of steps: by kind, and names by their text. -/
def Component.compare : Component → Component → Ordering
  | name m, name n => compareText m n
  | a, b => compareOfLessAndEq a.rank b.rank

/-- The lexicographic order of lists of steps. -/
def compareComponents : List Component → List Component → Ordering
  | [], [] => .eq
  | [], _ :: _ => .lt
  | _ :: _, [] => .gt
  | a :: s, b :: t => (a.compare b).then (compareComponents s t)

/-- The order of paths. -/
def compare (p q : Path) : Ordering := compareComponents p.components q.components

/-- A list of paths in order; equal ones keep their places. -/
def sort (paths : List Path) : List Path := paths.mergeSort fun p q => p.compare q != .gt

end ImageMigration.Path
