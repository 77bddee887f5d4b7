/-
The normal form of a path, on which all comparisons of paths rest.

* `Path.normal`: no silent names, and a `..` only where nothing is left to cancel: at the front of
  a relative path. The root is its own parent, and a path with no steps left is `.`;
* `Path.ofComponents`: the text of a list of steps.
-/
import ImageMigration.Path

namespace ImageMigration.Path

/-- The path that takes the given steps. -/
def ofComponents (steps : List Component) : Path :=
  steps.foldl (fun p c => p.join ⟨c.text⟩) ⟨[]⟩

/-- Takes one more step from a place given by its steps, the last one first. -/
def takeStep (place : List Component) (step : Component) : List Component :=
  match step, place with
  | .current, _ => place
  | .parent, .root :: _ => place
  | .parent, .name _ :: above => above
  | step, _ => step :: place

/-- The steps that are left of a path when every `..` has cancelled the name in front of it. -/
def resolvedSteps (p : Path) : List Component := (p.components.foldl takeStep []).reverse

/-- The normal form of a path. -/
def normal (p : Path) : Path :=
  match p.resolvedSteps with
  | [] => ⟨['.']⟩
  | steps => ofComponents steps

end ImageMigration.Path
