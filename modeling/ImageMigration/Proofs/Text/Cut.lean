/-
Cuts of a text at byte offsets.

An offset that is no character boundary has no cut, and a cut is determined by its offset. So a
place in a text is best told by the two parts of the text around it.

* `Text.splitAt?_eq_some_iff`, `Text.slice?_eq_some_iff`: cuts and slices by their parts;
* `Text.bytes_pos`, `Text.exists_append_of_bytes_le`: the byte length tells beginnings apart;
* `Text.IsCut`: the offsets between characters;
* `Text.IsAt`: a piece of a text at an offset; `Text.IsCut.exists_isAt`: there is one between any
  two cuts;
* `Text.split_join`: splitting undoes joining when the pieces hold no separator;
* `Text.exists_split_append`: text without separators behind a text goes to its last piece.
-/
import Mathlib.Tactic.Common
import Mathlib.Data.List.Basic
import ImageMigration.Text

namespace ImageMigration.Text

/-- A text with a character has a byte. -/
lemma bytes_pos {t : Text} (h : t ≠ []) : 0 < t.bytes := by
  cases t with
  | nil => exact absurd rfl h
  | cons c t =>
      have hc := c.utf8Size_pos
      rw [bytes_cons]
      omega

lemma bytes_eq_zero {t : Text} : t.bytes = 0 ↔ t = [] := by
  refine ⟨fun h => ?_, fun h => by rw [h]; rfl⟩
  by_contra hne
  have := bytes_pos hne
  omega

/-- A shorter beginning of a text is a beginning of a longer one. -/
lemma exists_append_of_bytes_le {a b x y : Text} (h : a ++ x = b ++ y)
    (hb : a.bytes ≤ b.bytes) : ∃ m, b = a ++ m ∧ x = m ++ y := by
  rcases List.append_eq_append_iff.mp h with ⟨m, hb', hx⟩ | ⟨m, ha, hy⟩
  · exact ⟨m, hb', hx⟩
  · have hm : m = [] := by
      rw [ha, bytes_append] at hb
      exact bytes_eq_zero.mp (by omega)
    subst hm
    exact ⟨[], by simpa using ha.symm, by simpa using hy.symm⟩

/-- A cut by its parts. -/
lemma splitAt?_eq_some_iff {n : Nat} {t a b : Text} :
    splitAt? n t = some (a, b) ↔ t = a ++ b ∧ a.bytes = n := by
  refine ⟨append_of_splitAt?, ?_⟩
  rintro ⟨rfl, rfl⟩
  exact splitAt?_append a b

/-- A slice by the parts around it. -/
lemma slice?_eq_some_iff {start stop : Nat} {t m : Text} :
    slice? start stop t = some m ↔
      ∃ a b, t = a ++ m ++ b ∧ a.bytes = start ∧ start + m.bytes = stop := by
  constructor
  · intro h
    simp only [slice?] at h
    split at h
    · next hle =>
      simp only [Option.bind_eq_bind, Option.bind_eq_some_iff, Prod.exists,
        Option.some.injEq] at h
      obtain ⟨a, rest, hcut, m', b, hcut', rfl⟩ := h
      obtain ⟨rfl, ha⟩ := splitAt?_eq_some_iff.mp hcut
      obtain ⟨rfl, hm⟩ := splitAt?_eq_some_iff.mp hcut'
      exact ⟨a, b, by simp, ha, by omega⟩
    · exact absurd h (by simp)
  · rintro ⟨a, b, rfl, rfl, rfl⟩
    have hcut : splitAt? a.bytes (a ++ m ++ b) = some (a, m ++ b) := by
      rw [List.append_assoc]
      exact splitAt?_append a (m ++ b)
    have hcut' : splitAt? (a.bytes + m.bytes - a.bytes) (m ++ b) = some (m, b) := by
      rw [Nat.add_sub_cancel_left]
      exact splitAt?_append m b
    rw [slice?, if_pos (Nat.le_add_right _ _)]
    simp only [Option.bind_eq_bind, hcut, hcut', Option.bind_some]

/-! ### Places -/

/-- The offset lies between two characters of the text, or at one of its ends. -/
def IsCut (t : Text) (n : Nat) : Prop := ∃ a b, t = a ++ b ∧ a.bytes = n

instance (t : Text) (n : Nat) : Decidable (IsCut t n) :=
  decidable_of_iff ((splitAt? n t).isSome = true) (by
    simp only [IsCut, Option.isSome_iff_exists, Prod.exists, splitAt?_eq_some_iff])

/-- What stands behind a cut has no part in it. -/
lemma IsCut.of_append {t u : Text} {n : Nat} (h : IsCut (t ++ u) n) (hn : n ≤ t.bytes) :
    IsCut t n := by
  obtain ⟨a, b, hcut, ha⟩ := h
  obtain ⟨m, hm, -⟩ := exists_append_of_bytes_le hcut.symm (by omega)
  exact ⟨a, m, hm, ha⟩

lemma IsCut.append {t : Text} {n : Nat} (h : IsCut t n) (u : Text) : IsCut (t ++ u) n := by
  obtain ⟨a, b, rfl, ha⟩ := h
  exact ⟨a, b ++ u, List.append_assoc .., ha⟩

/-- A piece of a text that starts at an offset. -/
def IsAt (t : Text) (offset : Nat) (piece : Text) : Prop :=
  ∃ a b, t = a ++ piece ++ b ∧ a.bytes = offset

lemma IsAt.append_left {t piece : Text} {offset : Nat} (h : IsAt t offset piece) (s : Text) :
    IsAt (s ++ t) (s.bytes + offset) piece := by
  obtain ⟨a, b, rfl, rfl⟩ := h
  exact ⟨s ++ a, b, by simp, by simp⟩

lemma IsAt.append_right {t piece : Text} {offset : Nat} (h : IsAt t offset piece) (s : Text) :
    IsAt (t ++ s) offset piece := by
  obtain ⟨a, b, rfl, ha⟩ := h
  exact ⟨a, b ++ s, by simp, ha⟩

/-- A piece of a piece. -/
lemma IsAt.trans {t piece inner : Text} {offset n : Nat} (h : IsAt t offset piece)
    (h' : IsAt piece n inner) : IsAt t (offset + n) inner := by
  obtain ⟨a, b, rfl, rfl⟩ := h
  obtain ⟨c, d, rfl, rfl⟩ := h'
  exact ⟨a ++ c, d ++ b, by simp, by simp⟩

/-- A piece ends where the text ends, or in front of it. -/
lemma IsAt.le_bytes {t piece : Text} {offset : Nat} (h : IsAt t offset piece) :
    offset + piece.bytes ≤ t.bytes := by
  obtain ⟨a, b, rfl, rfl⟩ := h
  simp only [bytes_append]
  omega

lemma isAt_iff_slice? {t piece : Text} {offset : Nat} :
    IsAt t offset piece ↔ slice? offset (offset + piece.bytes) t = some piece := by
  rw [slice?_eq_some_iff]
  refine ⟨fun ⟨a, b, h, ha⟩ => ⟨a, b, h, ha, rfl⟩, fun ⟨a, b, h, ha, _⟩ => ⟨a, b, h, ha⟩⟩

/-- Between two cuts there is a piece of the text. -/
lemma IsCut.exists_isAt {t : Text} {m n : Nat} (hm : IsCut t m) (hn : IsCut t n) (hle : m ≤ n) :
    ∃ piece : Text, IsAt t m piece ∧ m + piece.bytes = n := by
  obtain ⟨a, x, rfl, ha⟩ := hm
  obtain ⟨b, y, hcut, hb⟩ := hn
  obtain ⟨piece, rfl, rfl⟩ := exists_append_of_bytes_le hcut (by omega)
  rw [bytes_append] at hb
  exact ⟨piece, ⟨a, y, (List.append_assoc ..).symm, ha⟩, by omega⟩

/-- A slice is cut out at both of its ends. -/
lemma isCut_of_slice? {start stop : Nat} {t m : Text} (h : slice? start stop t = some m) :
    IsCut t start ∧ IsCut t stop := by
  obtain ⟨a, b, rfl, rfl, rfl⟩ := slice?_eq_some_iff.mp h
  exact ⟨⟨a, m ++ b, List.append_assoc .., rfl⟩, ⟨a ++ m, b, rfl, bytes_append ..⟩⟩

/-! ### Pieces between separators -/

lemma split_of_not_mem {sep : Char} {t : Text} (h : sep ∉ t) : split sep t = [t] := by
  induction t with
  | nil => rfl
  | cons c t ih =>
      simp only [List.mem_cons, not_or] at h
      rw [split, if_neg (Ne.symm h.1), ih h.2]

/-- The pieces around a separator are those in front of it and those behind it. -/
lemma split_append_sep (sep : Char) (a b : Text) :
    split sep (a ++ sep :: b) = split sep a ++ split sep b := by
  induction a with
  | nil => simp [split]
  | cons c a ih =>
      rw [List.cons_append, split, split, ih]
      split
      · rfl
      · cases hs : split sep a with
        | nil => exact absurd hs (split_ne_nil sep a)
        | cons p ps => rfl

lemma split_append {sep : Char} {piece t : Text} (h : sep ∉ piece) :
    split sep (piece ++ sep :: t) = piece :: split sep t := by
  rw [split_append_sep, split_of_not_mem h, List.singleton_append]

/-- A text with one separator has one cut there. -/
lemma eq_of_append_sep_eq {sep : Char} {a b c d : Text} (hc : sep ∉ c) (hd : sep ∉ d)
    (h : a ++ sep :: b = c ++ sep :: d) : a = c ∧ b = d := by
  have hsplit : split sep a ++ split sep b = [c] ++ [d] := by
    rw [← split_append_sep, h, split_append_sep, split_of_not_mem hc, split_of_not_mem hd]
  have hlength := congrArg List.length hsplit
  have ha := List.length_pos_of_ne_nil (split_ne_nil sep a)
  have hb := List.length_pos_of_ne_nil (split_ne_nil sep b)
  rw [List.length_append, List.length_append, List.length_singleton, List.length_singleton]
    at hlength
  obtain ⟨hfirst, hsecond⟩ := List.append_inj hsplit (by rw [List.length_singleton]; omega)
  rw [← join_split sep a, ← join_split sep b, hfirst, hsecond]
  exact ⟨rfl, rfl⟩

/-- Splitting undoes joining when the pieces hold no separator. -/
lemma split_join {sep : Char} {pieces : List Text} (hne : pieces ≠ [])
    (h : ∀ piece ∈ pieces, sep ∉ piece) : split sep (join sep pieces) = pieces := by
  induction pieces with
  | nil => exact absurd rfl hne
  | cons piece rest ih =>
      cases rest with
      | nil => exact split_of_not_mem (h piece (by simp))
      | cons next rest =>
          have hrest := ih (by simp) fun p hp => h p (List.mem_cons_of_mem _ hp)
          rw [join, split_append (h piece (by simp)), hrest]
          simp

lemma join_cons {sep : Char} {piece : Text} {rest : List Text} (h : rest ≠ []) :
    join sep (piece :: rest) = piece ++ sep :: join sep rest := by
  cases rest with
  | nil => exact absurd rfl h
  | cons next rest => rfl

lemma join_append {sep : Char} {front back : List Text} (hf : front ≠ []) (hb : back ≠ []) :
    join sep (front ++ back) = join sep front ++ sep :: join sep back := by
  induction front with
  | nil => exact absurd rfl hf
  | cons piece front ih =>
      cases front with
      | nil => exact join_cons hb
      | cons next front =>
          rw [List.cons_append, join_cons (by simp), join_cons (by simp), ih (by simp)]
          simp

/-- Text without separators goes to the last piece of what stands in front of it. -/
lemma exists_split_append (sep : Char) (a : Text) :
    ∃ pieces last, sep ∉ last ∧ (∀ p ∈ pieces, sep ∉ p) ∧
      ∀ b, sep ∉ b → split sep (a ++ b) = pieces ++ [last ++ b] := by
  obtain ⟨pieces, last, hlast⟩ : ∃ pieces last, split sep a = pieces ++ [last] :=
    (List.eq_nil_or_concat' (split sep a)).resolve_left (split_ne_nil sep a)
  have hfree : ∀ p ∈ pieces ++ [last], sep ∉ p := fun p hp =>
    not_mem_of_mem_split (hlast ▸ hp)
  refine ⟨pieces, last, hfree last (by simp), fun p hp => hfree p (by simp [hp]), fun b hb => ?_⟩
  have hall : ∀ p ∈ pieces ++ [last ++ b], sep ∉ p := by
    intro p hp
    rcases List.mem_append.mp hp with hp | hp
    · exact hfree p (by simp [hp])
    · rw [List.mem_singleton.mp hp, List.mem_append, not_or]
      exact ⟨hfree last (by simp), hb⟩
  have hjoin : a ++ b = join sep (pieces ++ [last ++ b]) := by
    rw [← join_split sep a, hlast]
    by_cases hnil : pieces = []
    · rw [hnil]
      rfl
    · rw [join_append hnil (by simp), join_append hnil (by simp)]
      simp [join]
  rw [hjoin, split_join (by simp) hall]

end ImageMigration.Text
