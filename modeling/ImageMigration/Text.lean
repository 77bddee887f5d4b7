/-
Text as a list of characters, measured in bytes.

Every offset and every span of this library counts bytes of the UTF-8 form of a text, while the
text itself is a plain list of characters. This module holds the bridge between the two.

* `Text.bytes`: the byte length, additive over concatenation (`Text.bytes_append`);
* `Text.splitAt?`: the cut at a byte offset, defined exactly when the offset is a character
  boundary; `Text.splitAt?_append` cuts a concatenation at its seam and
  `Text.append_of_splitAt?` says that a cut loses nothing;
* `Text.slice?`: the piece between two offsets;
* `Text.split`: the pieces between separators, with `Text.join_split` as its inverse.
-/

namespace ImageMigration

/-- A text: its characters in order. -/
abbrev Text := List Char

namespace Text

/-- The number of bytes of a text in UTF-8. -/
def bytes : Text → Nat
  | [] => 0
  | c :: rest => c.utf8Size + bytes rest

@[simp] theorem bytes_nil : bytes [] = 0 := rfl

@[simp] theorem bytes_cons (c : Char) (t : Text) : bytes (c :: t) = c.utf8Size + bytes t := rfl

@[simp] theorem bytes_append (s t : Text) : bytes (s ++ t) = bytes s + bytes t := by
  induction s with
  | nil => simp
  | cons c s ih => simp [ih, Nat.add_assoc]

/-- The cut of a text at a byte offset: what lies before it and what lies after it. There is none
when the offset is past the end or inside a character. -/
def splitAt? (n : Nat) (t : Text) : Option (Text × Text) :=
  if n = 0 then some ([], t)
  else match t with
    | [] => none
    | c :: rest =>
      if c.utf8Size ≤ n then (splitAt? (n - c.utf8Size) rest).map fun p => (c :: p.1, p.2)
      else none

theorem splitAt?_zero (t : Text) : splitAt? 0 t = some ([], t) := by
  cases t <;> simp [splitAt?]

/-- The seam of a concatenation is a character boundary, and the cut there gives the parts. -/
theorem splitAt?_append (s t : Text) : splitAt? s.bytes (s ++ t) = some (s, t) := by
  induction s with
  | nil => exact splitAt?_zero t
  | cons c s ih =>
    have hc : 0 < c.utf8Size := c.utf8Size_pos
    have h0 : ¬ (c.utf8Size + bytes s = 0) := by omega
    rw [List.cons_append, bytes_cons, splitAt?, if_neg h0]
    simp [ih]

/-- A cut loses nothing: the two parts make up the text, and the first has the length asked for. -/
theorem append_of_splitAt? {n : Nat} {t a b : Text} (h : splitAt? n t = some (a, b)) :
    t = a ++ b ∧ a.bytes = n := by
  induction t generalizing n a b with
  | nil =>
    unfold splitAt? at h
    split at h
    · simp_all
    · simp at h
  | cons c t ih =>
    unfold splitAt? at h
    split at h
    · simp_all
    · simp only at h
      split at h
      · simp only [Option.map_eq_some_iff] at h
        obtain ⟨⟨x, y⟩, hxy, he⟩ := h
        obtain ⟨h1, h2⟩ := ih hxy
        simp only [Prod.mk.injEq] at he
        obtain ⟨rfl, rfl⟩ := he
        refine ⟨by simp [h1], ?_⟩
        simp only [bytes_cons, h2]
        omega
      · simp at h

/-- The piece of a text between two byte offsets, if both are character boundaries in order. -/
def slice? (start stop : Nat) (t : Text) : Option Text := do
  if start ≤ stop then
    let (_, rest) ← t.splitAt? start
    let (piece, _) ← splitAt? (stop - start) rest
    some piece
  else none

/-- The pieces of a text between occurrences of a separator: always at least one. -/
def split (sep : Char) : Text → List Text
  | [] => [[]]
  | c :: rest =>
    if c = sep then [] :: split sep rest
    else match split sep rest with
      | [] => [[c]]
      | piece :: pieces => (c :: piece) :: pieces

theorem split_ne_nil (sep : Char) (t : Text) : split sep t ≠ [] := by
  cases t with
  | nil => simp [split]
  | cons c t =>
    unfold split
    split
    · simp
    · split <;> simp

/-- The pieces joined by a separator. -/
def join (sep : Char) : List Text → Text
  | [] => []
  | [piece] => piece
  | piece :: pieces => piece ++ sep :: join sep pieces

/-- Splitting loses nothing. -/
theorem join_split (sep : Char) (t : Text) : join sep (split sep t) = t := by
  induction t with
  | nil => rfl
  | cons c t ih =>
    have hne := split_ne_nil sep t
    unfold split
    split
    · next h =>
      cases hs : split sep t with
      | nil => exact absurd hs hne
      | cons p ps => rw [hs] at ih; simp [join, ih, h]
    · cases hs : split sep t with
      | nil => exact absurd hs hne
      | cons p ps =>
        rw [hs] at ih
        cases ps with
        | nil => simpa [join] using ih
        | cons q qs => simpa [join] using ih

/-- The pieces of a split hold no separator. -/
theorem not_mem_of_mem_split {sep : Char} {t piece : Text} (h : piece ∈ split sep t) :
    sep ∉ piece := by
  induction t generalizing piece with
  | nil => simp [split] at h; simp [h]
  | cons c t ih =>
    unfold split at h
    split at h
    · simp only [List.mem_cons] at h
      rcases h with rfl | h
      · simp
      · exact ih h
    · next hc =>
      cases hs : split sep t with
      | nil => exact absurd hs (split_ne_nil sep t)
      | cons p ps =>
        rw [hs] at h ih
        simp only [List.mem_cons] at h
        rcases h with rfl | h
        · have := @ih p (by simp)
          simp [this, Ne.symm hc]
        · exact ih (by simp [h])

/-- Whether a text begins with another. -/
def startsWith (t start : Text) : Bool := start.isPrefixOf t

/-- The text behind a given beginning. -/
def dropStart? (t start : Text) : Option Text :=
  if start.isPrefixOf t then some (t.drop start.length) else none

/-- Whether a text ends with another, character by character. -/
def endsWith (t ending : Text) : Bool := ending.isSuffixOf t

/-- The part up to the last occurrence of a character and the part behind it. -/
def splitLast? (sep : Char) (t : Text) : Option (Text × Text) :=
  let behind := t.reverse.takeWhile (· ≠ sep)
  match t.reverse.dropWhile (· ≠ sep) with
  | [] => none
  | _ :: before => some (before.reverse, behind.reverse)

/-- The decimal digits of a number. -/
def ofNat (n : Nat) : Text := Nat.toDigits 10 n

end Text

end ImageMigration
