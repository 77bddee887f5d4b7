/-
White space and words, taken apart and put together.

A text is white space, what is trimmed, and white space; or white space, its first word, and what
follows. Whatever is put together in one of these ways is taken apart in the same way again.

* `Text.IsWord`, `Text.IsTrimmed`: the pieces that are found; `Text.trailingBlank`: the white space
  behind them;
* `Text.eq_of_firstWord?`, `Text.firstWord?_append`: a text and its first word;
* `Text.eq_append_trim`, `Text.trim_append`: a text and what is trimmed of it.
-/
import Mathlib.Tactic.Common
import Mathlib.Data.List.TakeWhile
import ImageMigration.Text.Blank

namespace ImageMigration.Text

variable {t word rest front back : Text}

/-- A run of characters that are not white space. -/
structure IsWord (w : Text) : Prop where
  ne_nil : w ≠ []
  no_blank : ∀ c ∈ w, isBlank c = false

/-- A text that neither starts nor ends with white space. -/
structure IsTrimmed (t : Text) : Prop where
  ne_nil : t ≠ []
  starts : ∀ c ∈ t.head?, isBlank c = false
  ends : ∀ c ∈ t.getLast?, isBlank c = false

/-- The white space at the end of a text that is more than white space. -/
def trailingBlank (t : Text) : Text := (t.trimStart.reverse.takeWhile isBlank).reverse

lemma isBlankText_iff : t.isBlankText = true ↔ ∀ c ∈ t, isBlank c = true := List.all_eq_true

lemma isBlankText_takeWhile (t : Text) : isBlankText (t.takeWhile isBlank) = true :=
  isBlankText_iff.mpr fun _ hc => List.mem_takeWhile_imp hc

lemma isBlankText_leadingBlank (t : Text) : t.leadingBlank.isBlankText = true :=
  isBlankText_takeWhile t

lemma isBlankText_reverse (h : t.isBlankText = true) : isBlankText t.reverse = true := by
  rw [isBlankText_iff] at h ⊢
  exact fun c hc => h c (List.mem_reverse.mp hc)

lemma isBlankText_trailingBlank (t : Text) : t.trailingBlank.isBlankText = true :=
  isBlankText_reverse (isBlankText_takeWhile _)

/-! ### Cuts at white space -/

/-- White space ends where something else starts. -/
lemma takeWhile_isBlank_append (hf : front.isBlankText = true)
    (ht : ∀ c ∈ t.head?, isBlank c = false) :
    (front ++ t).takeWhile isBlank = front ∧ (front ++ t).dropWhile isBlank = t := by
  have hfront := isBlankText_iff.mp hf
  rw [List.takeWhile_append_of_pos hfront, List.dropWhile_append_of_pos hfront]
  cases t with
  | nil => simp
  | cons c t =>
      have hc : isBlank c = false := ht c rfl
      rw [List.takeWhile_cons_of_neg (by simp [hc]), List.dropWhile_cons_of_neg (by simp [hc]),
        List.append_nil]
      exact ⟨rfl, rfl⟩

/-- A word ends where white space starts. -/
lemma takeWhile_word_append (hw : word.IsWord) (hr : ∀ c ∈ rest.head?, isBlank c = true) :
    (word ++ rest).takeWhile (fun c => !isBlank c) = word ∧
      (word ++ rest).dropWhile (fun c => !isBlank c) = rest := by
  have hword : ∀ c ∈ word, (!isBlank c) = true := fun c hc => by simp [hw.no_blank c hc]
  rw [List.takeWhile_append_of_pos hword, List.dropWhile_append_of_pos hword]
  cases rest with
  | nil => simp
  | cons c rest =>
      have hc : isBlank c = true := hr c rfl
      rw [List.takeWhile_cons_of_neg (by simp [hc]), List.dropWhile_cons_of_neg (by simp [hc]),
        List.append_nil]
      exact ⟨rfl, rfl⟩

lemma starts_trimStart (t : Text) : ∀ c ∈ t.trimStart.head?, isBlank c = false := by
  intro c hc
  have hhead := List.head?_dropWhile_not isBlank t
  rw [trimStart] at hc
  rw [Option.mem_def] at hc
  rw [hc] at hhead
  simpa using hhead

/-! ### First words -/

lemma IsWord.starts (hw : word.IsWord) : ∀ c ∈ (word ++ rest).head?, isBlank c = false := by
  obtain ⟨c, w, rfl⟩ := List.exists_cons_of_ne_nil hw.ne_nil
  intro d hd
  rw [List.cons_append, List.head?_cons, Option.mem_def, Option.some.injEq] at hd
  exact hd ▸ hw.no_blank c (by simp)

/-- **What was put around a word is found around it.** -/
lemma firstWord?_append (hf : front.isBlankText = true) (hw : word.IsWord)
    (hr : ∀ c ∈ rest.head?, isBlank c = true) :
    firstWord? (front ++ word ++ rest) = some word ∧
      leadingBlank (front ++ word ++ rest) = front ∧
      afterFirstWord (front ++ word ++ rest) = rest := by
  rw [List.append_assoc]
  obtain ⟨hleading, htrim⟩ := takeWhile_isBlank_append hf hw.starts (t := word ++ rest)
  obtain ⟨htake, hdrop⟩ := takeWhile_word_append hw hr
  rw [firstWord?, afterFirstWord, trimStart, htrim, htake, hdrop]
  refine ⟨?_, hleading, rfl⟩
  obtain ⟨c, w, rfl⟩ := List.exists_cons_of_ne_nil hw.ne_nil
  rfl

/-- **A text is white space, its first word, and what follows.** -/
lemma eq_of_firstWord? (h : t.firstWord? = some word) :
    t = t.leadingBlank ++ word ++ t.afterFirstWord ∧ word.IsWord ∧
      ∀ c ∈ t.afterFirstWord.head?, isBlank c = true := by
  have hword : t.trimStart.takeWhile (fun c => !isBlank c) = word ∧ word ≠ [] := by
    rw [firstWord?] at h
    split at h
    · exact absurd h (by simp)
    · next hne =>
      rw [Option.some.injEq] at h
      exact ⟨h, fun hnil => hne (h.trans hnil)⟩
  refine ⟨?_, ⟨hword.2, fun c hc => ?_⟩, fun c hc => ?_⟩
  · rw [List.append_assoc, afterFirstWord, ← hword.1, List.takeWhile_append_dropWhile,
      leadingBlank_append_trimStart]
  · rw [← hword.1] at hc
    simpa using List.mem_takeWhile_imp hc
  · have hhead := List.head?_dropWhile_not (fun c => !isBlank c) t.trimStart
    rw [afterFirstWord, Option.mem_def] at hc
    rw [hc] at hhead
    simpa using hhead

lemma isBlankText_of_firstWord?_eq_none (h : t.firstWord? = none) : t.isBlankText = true := by
  have hnil : t.trimStart = [] := by
    cases htrim : t.trimStart with
    | nil => rfl
    | cons c rest =>
        have hc := starts_trimStart t c (by rw [htrim]; rfl)
        rw [firstWord?, htrim, List.takeWhile_cons_of_pos (by simp [hc])] at h
        exact absurd h (by simp)
  have hall := leadingBlank_append_trimStart t
  rw [hnil, List.append_nil] at hall
  rw [← hall]
  exact isBlankText_leadingBlank t

/-! ### Trimming -/

lemma head?_append_left (h : t ≠ []) : (t ++ back).head? = t.head? := by
  obtain ⟨c, t, rfl⟩ := List.exists_cons_of_ne_nil h
  rfl

/-- **What was put around a trimmed text is trimmed off.** -/
lemma trim_append (hf : front.isBlankText = true) (ht : t.IsTrimmed)
    (hb : back.isBlankText = true) :
    trim (front ++ t ++ back) = t ∧ leadingBlank (front ++ t ++ back) = front ∧
      trailingBlank (front ++ t ++ back) = back := by
  have hstart : ∀ c ∈ (t ++ back).head?, isBlank c = false := by
    rw [head?_append_left ht.ne_nil]
    exact ht.starts
  have hend : ∀ c ∈ t.reverse.head?, isBlank c = false := by
    rw [List.head?_reverse]
    exact ht.ends
  rw [List.append_assoc]
  obtain ⟨hleading, htrim⟩ := takeWhile_isBlank_append hf hstart
  obtain ⟨htake, hdrop⟩ := takeWhile_isBlank_append (isBlankText_reverse hb) hend
  rw [trim, trimEnd, trailingBlank, trimStart, htrim, List.reverse_append, htake, hdrop,
    List.reverse_reverse, List.reverse_reverse]
  exact ⟨rfl, hleading, rfl⟩

lemma trimStart_eq (t : Text) : t.trimStart = t.trim ++ t.trailingBlank := by
  rw [trim, trimEnd, trailingBlank, ← List.reverse_append, List.takeWhile_append_dropWhile,
    List.reverse_reverse]

/-- **A text is white space, what is trimmed, and white space.** -/
lemma eq_append_trim (t : Text) : t = t.leadingBlank ++ t.trim ++ t.trailingBlank := by
  rw [List.append_assoc, ← trimStart_eq, leadingBlank_append_trimStart]

lemma isTrimmed_trim (h : t.trim ≠ []) : t.trim.IsTrimmed := by
  refine ⟨h, fun c hc => ?_, fun c hc => ?_⟩
  · refine starts_trimStart t c ?_
    rw [trimStart_eq, head?_append_left h]
    exact hc
  · rw [trim, trimEnd, List.getLast?_reverse] at hc
    exact starts_trimStart t.trimStart.reverse c hc

/-- Nothing is trimmed off a trimmed text. -/
lemma IsTrimmed.trim_eq (ht : t.IsTrimmed) :
    t.trimStart = t ∧ t.leadingBlank = [] ∧ t.trim = t := by
  have hnone : isBlankText [] = true := rfl
  obtain ⟨htrim, hleading, -⟩ := trim_append hnone ht hnone
  rw [List.nil_append, List.append_nil] at htrim hleading
  have hcut := leadingBlank_append_trimStart t
  rw [hleading, List.nil_append] at hcut
  exact ⟨hcut, hleading, htrim⟩

lemma trimStart_trim (t : Text) : t.trim.trimStart = t.trim := by
  by_cases htrim : t.trim = []
  · rw [htrim]
    rfl
  · exact (isTrimmed_trim htrim).trim_eq.1

end ImageMigration.Text
