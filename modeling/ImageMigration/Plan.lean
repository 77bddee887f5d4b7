/-
The edits that point the references of a file to the converted images.

A file is never printed anew. A string that is written as its value gets the bytes of each extension
exchanged in place; one with escapes is written again as a whole; any other one is left as it is and
counted, so that nothing it refers to is deleted.

* `valueEdits`: the exchanges of extensions in the value of a string;
* `Plan`, `Plan.ofLiterals`: the edits of a file and the number of references left as they are.
-/
import ImageMigration.Edit
import ImageMigration.Literal
import ImageMigration.Outcome
import ImageMigration.Script.StringLiteral

namespace ImageMigration

/-- The exchange of the extension of a reference, if its image was converted. -/
def Reference.swap? (lookup : Lookup) (site : Site) (r : Reference) : Option Edit := do
  let converted ← lookup.match? r site
  let (start, stop) ← r.extensionRange?
  let extension ← converted.extension?
  some ⟨start, stop, '.' :: extension⟩

/-- The exchanges of extensions in the value of a string, for all its converted references. -/
def valueEdits (lookup : Lookup) (site : Site) (value : Text) : List Edit :=
  (Reference.ofValue value).filterMap (Reference.swap? lookup site)

/-- The changes planned for a file. -/
structure Plan where
  edits : List Edit
  /-- references to converted images that stay as they are -/
  unedited : Nat
  deriving DecidableEq, Inhabited

namespace Plan

/-- Nothing to do. -/
def empty : Plan := ⟨[], 0⟩

/-- Two plans for parts of one file. -/
def append (p q : Plan) : Plan := ⟨p.edits ++ q.edits, p.unedited + q.unedited⟩

/-- The text between the quotes of a string in its source. -/
def interior (source : Text) (span : Span) : Text :=
  (Text.slice? (span.start + 1) (span.stop - 1) source).getD []

/-- The quote in front of a string in its source. -/
def openingQuote (source : Text) (span : Span) : Char :=
  match Text.splitAt? span.start source with
  | some (_, '\'' :: _) => '\''
  | _ => '"'

/-- The string written again with its extensions exchanged. -/
def requoted? (source : Text) (span : Span) (value : Text) (swaps : List Edit) : Option Edit :=
  (Edit.applyAll? value swaps).map fun v =>
    ⟨span.start, span.stop, Script.quote (openingQuote source span) v⟩

/-- The plan for a string with exchanges in its value. -/
def ofSwaps (source : Text) (span : Span) (value : Text) (verbatim : Bool) (swaps : List Edit) :
    Plan :=
  if swaps.isEmpty then empty
  else if verbatim then ⟨swaps.map (Edit.shift (span.start + 1)), 0⟩
  else if '\\' ∈ interior source span then ⟨(requoted? source span value swaps).toList, 0⟩
  else ⟨[], swaps.length⟩

/-- The plan for one literal. -/
def ofLiteral (lookup : Lookup) (site : Site) (source : Text) : Literal → Plan
  | .string span value verbatim =>
    ofSwaps source span value verbatim (valueEdits lookup site value)
  | .template _ _ => empty

/-- The plan for the literals of a file. -/
def ofLiterals (lookup : Lookup) (site : Site) (source : Text) (literals : List Literal) : Plan :=
  (literals.map (ofLiteral lookup site source)).foldr append empty

end Plan

end ImageMigration
