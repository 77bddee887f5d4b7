/-
Literals of a source file, detached from the rest of its syntax.

* `Span`: a range of bytes of the source;
* `Literal`: a string with its value, or a template with its chunks;
* `Literal.collected`: a literal as it is taken from its source;
* `Literal.references`: the image references that a literal carries.
-/
import ImageMigration.Reference

namespace ImageMigration

/-- The bytes of a source from `start` to `stop`. -/
structure Span where
  start : Nat
  stop : Nat
  deriving DecidableEq, Inhabited

/-- A literal that may hold image paths. -/
inductive Literal where
  /-- A string. Its span includes the quotes; it is `verbatim` when the text between them is
  exactly its value. -/
  | string (span : Span) (value : Text) (verbatim : Bool)
  /-- A template with its chunks of text. It is never resolved or updated. -/
  | template (span : Span) (chunks : List Text)
  deriving DecidableEq, Inhabited

namespace Literal

/-- Where a literal stands. -/
def span : Literal → Span
  | string span _ _ => span
  | template span _ => span

/-- Whether the text between the quotes of a string is exactly its value. -/
def isVerbatimIn (source : Text) (span : Span) (value : Text) : Bool :=
  decide (span.start + 2 ≤ span.stop) &&
    Text.slice? (span.start + 1) (span.stop - 1) source == some value

/-- A literal as it is taken from its source, which tells whether a string is verbatim. -/
def collected (source : Text) : Literal → Literal
  | string span value _ => string span value (isVerbatimIn source span value)
  | template span chunks => template span chunks

/-- The image references that a literal carries. -/
def references : Literal → List Reference
  | string _ value _ => Reference.ofValue value
  | template _ chunks => Reference.ofChunks chunks

end Literal

end ImageMigration
