/-
Replacements of byte ranges, and their application to a text.

Edits are planned independently of each other and applied together. Application works from the
back of the text to its front, so that the offsets of the edits still to come stay valid; an edit
that reaches into a range already replaced, or past the end, is left out.

* `Edit.inOrder`: the edits from the last start to the first, equal starts in their given order;
* `Edit.kept`: the edits that are applied; `Edit.dropped`: those that are left out;
* `Edit.applyAll?`: the edited text, undefined when a kept edit starts or ends inside a character.
-/
import ImageMigration.Text

namespace ImageMigration

/-- The bytes from `start` to `stop` are to be replaced. -/
structure Edit where
  start : Nat
  stop : Nat
  replacement : Text
  deriving DecidableEq, Inhabited

namespace Edit

/-- An edit moved to the right. -/
def shift (offset : Nat) (e : Edit) : Edit :=
  { e with start := offset + e.start, stop := offset + e.stop }

/-- The edits from the last start to the first; those with one start keep their order. -/
def inOrder (edits : List Edit) : List Edit := edits.mergeSort fun d e => e.start ≤ d.start

/-- Whether an edit has to be left out when everything from `limit` on is settled. -/
def isBlocked (limit : Nat) (e : Edit) : Bool := limit < e.stop || e.stop < e.start

/-- The edits that are applied, from the back, when everything from `limit` on is settled. -/
def kept (limit : Nat) : List Edit → List Edit
  | [] => []
  | e :: edits => if e.isBlocked limit then kept limit edits else e :: kept e.start edits

/-- The edits that are left out. -/
def dropped (limit : Nat) : List Edit → List Edit
  | [] => []
  | e :: edits => if e.isBlocked limit then e :: dropped limit edits else dropped e.start edits

/-- The text with one range replaced. -/
def replace? (t : Text) (e : Edit) : Option Text := do
  let (before, rest) ← t.splitAt? e.start
  let (_, behind) ← Text.splitAt? (e.stop - e.start) rest
  some (before ++ e.replacement ++ behind)

/-- The text with the edits applied. -/
def applyAll? (t : Text) (edits : List Edit) : Option Text :=
  (kept t.bytes (inOrder edits)).foldlM replace? t

end Edit

end ImageMigration
