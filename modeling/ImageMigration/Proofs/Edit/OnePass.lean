/-
Edits in one pass.

Edits are applied in place from the back of a text to its front, and those that reach into what was
replaced are left out. What comes of it can be written down in one pass from the left to the right:
gaps of the text as they are, and the replacements between them. Edits may be empty, overlap, start
at one place, or be given more than once; there is an edited text if those that are kept start and
stop between characters.

* `Edit.spliceFrom?`: a text with edits, written down from the left to the right;
* `Edit.foldlM_replace?_eq`: **the work from the back gives what is written down from the front**;
* `Edit.IsSettled`: edits told apart into those that are carried out and those that are left out;
  `Edit.kept_append_dropped_perm`, `Edit.reason_of_mem_dropped`: why an edit is left out;
* `Edit.applyAll?_isSplice`: **the whole statement**, with what holds of edits that keep apart.
-/
import ImageMigration.Proofs.Edit.Splice

namespace ImageMigration.Edit

open Text (IsAt IsCut)

/-- The text between two offsets with edits carried out, which come in their order from the left to
the right: the gap in front of an edit, its replacement, and so on behind the range of the edit. -/
def spliceFrom? (t : Text) (start stop : Nat) : List Edit → Option Text
  | [] => t.slice? start stop
  | e :: edits => do
    let gap ← t.slice? start e.start
    let rest ← spliceFrom? t e.stop stop edits
    some (gap ++ e.replacement ++ rest)

/-- Edits of a text, told apart into those that are carried out, from the left to the right, and
those that are left out. Each of the latter has a reason: it stops in front of its start, or behind
the text, or behind the start of a kept edit that starts no earlier. -/
structure IsSettled (t : Text) (edits kept dropped : List Edit) : Prop where
  perm : (kept ++ dropped).Perm edits
  apart : kept.Pairwise fun d e => d.stop ≤ e.start
  bounds : ∀ e ∈ kept, e.start ≤ e.stop ∧ e.stop ≤ t.bytes
  reason : ∀ e ∈ dropped, e.stop < e.start ∨ t.bytes < e.stop ∨
    ∃ d ∈ kept, e.start ≤ d.start ∧ d.start < e.stop

/-- Both ends of an edit lie between characters. -/
def IsBetweenCharacters (t : Text) (e : Edit) : Prop := IsCut t e.start ∧ IsCut t e.stop

instance (t : Text) (e : Edit) : Decidable (IsBetweenCharacters t e) :=
  inferInstanceAs (Decidable (IsCut t e.start ∧ IsCut t e.stop))

variable {t t' : Text} {edits edits' : List Edit} {d e : Edit} {start stop limit : Nat}

lemma IsBetweenCharacters.spans (h : IsBetweenCharacters t e) (hle : e.start ≤ e.stop) :
    Spans t e :=
  h.1.exists_isAt h.2 hle

/-! ### One pass -/

/-- The last edit of a pass, and the text behind it. -/
lemma spliceFrom?_concat (t : Text) (start stop : Nat) (edits : List Edit) (e : Edit) :
    spliceFrom? t start stop (edits ++ [e]) = (do
      let front ← spliceFrom? t start e.start edits
      let back ← t.slice? e.stop stop
      some (front ++ e.replacement ++ back)) := by
  induction edits generalizing start with
  | nil => rfl
  | cons d edits ih =>
      simp only [List.cons_append, spliceFrom?, ih, Option.bind_eq_bind, Option.bind_assoc,
        Option.bind_some, List.append_assoc]

/-- **A splice is what is written down in one pass.** -/
lemma Spliced.spliceFrom?_eq (h : Spliced t edits t') (behind : Text) :
    spliceFrom? (t ++ behind) 0 t.bytes edits.reverse = some t' := by
  induction h generalizing behind with
  | nil t =>
      rw [List.reverse_nil, spliceFrom?, Text.slice?_eq_some_iff]
      exact ⟨[], behind, rfl, rfl, Nat.zero_add _⟩
  | @cons e edits front piece back front' hstart hstop hfront ih =>
      have hback : (front ++ piece ++ back ++ behind).slice? e.stop (front ++ piece ++ back).bytes
          = some back := by
        rw [Text.slice?_eq_some_iff]
        refine ⟨front ++ piece, behind, rfl, ?_, ?_⟩
        · rw [Text.bytes_append]
          omega
        · rw [Text.bytes_append, Text.bytes_append]
          omega
      have hinner := ih (piece ++ back ++ behind)
      rw [hstart, ← List.append_assoc, ← List.append_assoc] at hinner
      rw [List.reverse_cons, spliceFrom?_concat, hinner, hback]
      rfl

/-- A pass is carried out only if all edits start and stop between characters. -/
lemma isBetweenCharacters_of_spliceFrom? (h : spliceFrom? t start stop edits = some t') :
    IsCut t start ∧ ∀ e ∈ edits, IsBetweenCharacters t e := by
  induction edits generalizing start t' with
  | nil => exact ⟨(Text.isCut_of_slice? h).1, fun e he => absurd he (by simp)⟩
  | cons d edits ih =>
      simp only [spliceFrom?, Option.bind_eq_bind, Option.bind_eq_some_iff] at h
      obtain ⟨gap, hgap, rest, hrest, -⟩ := h
      obtain ⟨hstart, hdstart⟩ := Text.isCut_of_slice? hgap
      obtain ⟨hdstop, hall⟩ := ih hrest
      refine ⟨hstart, fun e he => ?_⟩
      rcases List.mem_cons.mp he with rfl | he
      · exact ⟨hdstart, hdstop⟩
      · exact hall e he

/-! ### From the back -/

/-- The pieces of a text of which one is replaced. -/
lemma replace?_eq_some (hle : e.start ≤ e.stop) (h : replace? t e = some t') :
    ∃ front piece back, t = front ++ piece ++ back ∧ front.bytes = e.start ∧
      e.start + piece.bytes = e.stop ∧ t' = front ++ e.replacement ++ back := by
  simp only [replace?, Option.bind_eq_bind, Option.bind_eq_some_iff, Prod.exists,
    Option.some.injEq] at h
  obtain ⟨front, rest, hcut, piece, back, hcut', rfl⟩ := h
  obtain ⟨rfl, hfront⟩ := Text.splitAt?_eq_some_iff.mp hcut
  obtain ⟨rfl, hpiece⟩ := Text.splitAt?_eq_some_iff.mp hcut'
  exact ⟨front, piece, back, (List.append_assoc ..).symm, hfront, by omega, rfl⟩

/-- The work from the back is carried out only if all edits start and stop between characters. What
was replaced behind an edit tells nothing about its ends. -/
lemma isBetweenCharacters_of_foldlM (hdesc : Descending edits)
    (hle : ∀ e ∈ edits, e.start ≤ e.stop) (h : edits.foldlM replace? t = some t') :
    ∀ e ∈ edits, IsBetweenCharacters t e := by
  induction edits generalizing t with
  | nil => exact fun e he => absurd he (by simp)
  | cons d edits ih =>
      obtain ⟨hbefore, hrest⟩ := List.pairwise_cons.mp hdesc
      rw [List.foldlM_cons, Option.bind_eq_bind, Option.bind_eq_some_iff] at h
      obtain ⟨next, hnext, h⟩ := h
      obtain ⟨front, piece, back, rfl, hstart, hstop, rfl⟩ :=
        replace?_eq_some (hle d (by simp)) hnext
      have hinner := ih hrest (fun e he => hle e (by simp [he])) h
      have hfront : ∀ n ≤ front.bytes, IsCut (front ++ d.replacement ++ back) n →
          IsCut (front ++ piece ++ back) n := by
        intro n hn hcut
        rw [List.append_assoc] at hcut ⊢
        exact (hcut.of_append hn).append _
      intro e he
      rcases List.mem_cons.mp he with rfl | he
      · refine ⟨⟨front, piece ++ back, List.append_assoc .., hstart⟩, front ++ piece, back, rfl, ?_⟩
        rw [Text.bytes_append]
        omega
      · have hin := hbefore e he
        have hends := hle e (by simp [he])
        obtain ⟨hestart, hestop⟩ := hinner e he
        exact ⟨hfront _ (by omega) hestart, hfront _ (by omega) hestop⟩

/-- **The work from the back gives what is written down from the front,** and both come to an end
if all edits start and stop between characters, and only then. -/
lemma foldlM_replace?_eq (hdesc : Descending edits) (hle : ∀ e ∈ edits, e.start ≤ e.stop) :
    edits.foldlM replace? t = spliceFrom? t 0 t.bytes edits.reverse ∧
      ((edits.foldlM replace? t).isSome = true ↔ ∀ e ∈ edits, IsBetweenCharacters t e) := by
  by_cases hall : ∀ e ∈ edits, IsBetweenCharacters t e
  · obtain ⟨t', hspliced⟩ := exists_spliced hdesc fun e he => (hall e he).spans (hle e he)
    have hback := foldlM_replace?_append hspliced []
    have hfront := hspliced.spliceFrom?_eq []
    rw [List.append_nil] at hback hfront
    rw [List.append_nil] at hback
    rw [hback, hfront]
    exact ⟨rfl, iff_of_true rfl hall⟩
  · have hback : edits.foldlM replace? t = none := by
      by_contra hsome
      obtain ⟨t', ht'⟩ := Option.ne_none_iff_exists'.mp hsome
      exact hall (isBetweenCharacters_of_foldlM hdesc hle ht')
    have hfront : spliceFrom? t 0 t.bytes edits.reverse = none := by
      by_contra hsome
      obtain ⟨t', ht'⟩ := Option.ne_none_iff_exists'.mp hsome
      exact hall fun e he =>
        (isBetweenCharacters_of_spliceFrom? ht').2 e (List.mem_reverse.mpr he)
    rw [hback, hfront]
    exact ⟨rfl, iff_of_false (by simp) hall⟩

/-! ### What is left out -/

lemma kept_append_dropped_perm (limit : Nat) (edits : List Edit) :
    (kept limit edits ++ dropped limit edits).Perm edits := by
  induction edits generalizing limit with
  | nil => exact List.Perm.refl []
  | cons e edits ih =>
      rw [kept, dropped]
      split
      · exact List.perm_middle.trans ((ih limit).cons e)
      · exact (ih e.start).cons e

/-- **Why an edit is left out,** when the edits come from the last start to the first. -/
lemma reason_of_mem_dropped (hsorted : edits.Pairwise fun d e => e.start ≤ d.start)
    (he : e ∈ dropped limit edits) :
    e.stop < e.start ∨ limit < e.stop ∨
      ∃ d ∈ kept limit edits, e.start ≤ d.start ∧ d.start < e.stop := by
  induction edits generalizing limit with
  | nil => exact absurd he (by simp [dropped])
  | cons d edits ih =>
      obtain ⟨hfirst, hrest⟩ := List.pairwise_cons.mp hsorted
      rw [dropped] at he
      rw [kept]
      cases hblock : d.isBlocked limit with
      | true =>
          rw [hblock, if_pos rfl] at he
          rw [if_pos rfl]
          rcases List.mem_cons.mp he with rfl | he
          · simp only [isBlocked, Bool.or_eq_true, decide_eq_true_eq] at hblock
            omega
          · exact ih hrest he
      | false =>
          rw [hblock, if_neg (by simp)] at he
          rw [if_neg (by simp)]
          have hmem : e ∈ edits :=
            (kept_append_dropped_perm d.start edits).mem_iff.mp (List.mem_append_right _ he)
          have hstart := hfirst e hmem
          -- whatever the edit reaches into now starts at the kept edit, or in front of it
          rcases ih hrest he with hinverted | hpast | ⟨c, hc, hreach⟩
          · exact Or.inl hinverted
          · exact Or.inr (Or.inr ⟨d, by simp, hstart, hpast⟩)
          · exact Or.inr (Or.inr ⟨c, by simp [hc], hreach⟩)

lemma isSettled_applied (t : Text) (edits : List Edit) :
    IsSettled t edits (applied t edits).reverse (dropped t.bytes (inOrder edits)) where
  perm := by
    have hsplit := kept_append_dropped_perm t.bytes (inOrder edits)
    have hmoved :=
      (List.reverse_perm (applied t edits)).append_right (dropped t.bytes (inOrder edits))
    exact hmoved.trans (hsplit.trans (List.mergeSort_perm _ _))
  apart := List.pairwise_reverse.mpr (descending_kept t.bytes (inOrder edits))
  bounds e he := le_of_mem_kept (List.mem_reverse.mp he)
  reason e he := by
    rcases reason_of_mem_dropped (pairwise_inOrder edits) he with
      hinverted | hpast | ⟨d, hd, hreach⟩
    · exact Or.inl hinverted
    · exact Or.inr (Or.inl hpast)
    · exact Or.inr (Or.inr ⟨d, List.mem_reverse.mpr hd, hreach⟩)

/-- Nothing is left out of edits that fit and keep apart. -/
lemma IsSettled.dropped_eq_nil {kept dropped : List Edit} (h : IsSettled t edits kept dropped)
    (hfits : ∀ e ∈ edits, Fits t e) (hapart : edits.Pairwise Apart) : dropped = [] := by
  have hboth : (kept ++ dropped).Pairwise Apart := hapart.perm h.perm.symm Or.symm
  have hmem : ∀ e ∈ kept ++ dropped, Fits t e := fun e he => hfits e (h.perm.mem_iff.mp he)
  refine List.eq_nil_iff_forall_not_mem.mpr fun e he => ?_
  have hlt := (hmem e (by simp [he])).lt
  have hle := (hmem e (by simp [he])).le_bytes
  rcases h.reason e he with hinverted | hpast | ⟨d, hd, hstart, hstop⟩
  · omega
  · omega
  · have hdlt := (hmem d (by simp [hd])).lt
    rcases (List.pairwise_append.mp hboth).2.2 d hd e he with hde | hed
    · omega
    · omega

/-- Edits that keep apart agree. -/
lemma agree_of_pairwise (hapart : edits.Pairwise Apart) : Agree edits :=
  List.Pairwise.forall_of_forall_of_flip (fun _ _ => Or.inl rfl) (hapart.imp Or.inr)
    (hapart.imp fun h => Or.inr h.symm)

/-- The order in which edits are given tells nothing, if they fit and keep apart. -/
lemma applyAll?_eq_of_perm (hfits : ∀ e ∈ edits, Fits t e) (hapart : edits.Pairwise Apart)
    (hperm : edits'.Perm edits) : applyAll? t edits' = applyAll? t edits := by
  obtain ⟨t', happly, hspliced⟩ := applyAll?_of_fits hfits
  have hagree := agree_of_pairwise hapart
  rw [happly]
  refine hspliced.applyAll?_eq (fun e he => hfits e (hperm.mem_iff.mp he)) ?_ fun e => ?_
  · exact fun d hd e he => hagree d (hperm.mem_iff.mp hd) e (hperm.mem_iff.mp he)
  · rw [mem_applied_iff hfits hagree, hperm.mem_iff]

/-- **Edits are applied by one pass over the text.** Some of them are kept and the others left out
for a reason. The kept ones are carried out in one pass, and there is an edited text if they start
and stop between characters, and only then. When all edits replace pieces of the text that keep
apart, none is left out, and the order in which they are given tells nothing. -/
theorem applyAll?_isSplice (t : Text) (edits : List Edit) :
    ∃ kept dropped, IsSettled t edits kept dropped ∧
      applyAll? t edits = spliceFrom? t 0 t.bytes kept ∧
      ((applyAll? t edits).isSome = true ↔ ∀ e ∈ kept, IsBetweenCharacters t e) ∧
      ((∀ e ∈ edits, Fits t e) → edits.Pairwise Apart →
        dropped = [] ∧ ∀ edits', edits'.Perm edits → applyAll? t edits' = applyAll? t edits) := by
  have hsettled := isSettled_applied t edits
  have hle : ∀ e ∈ applied t edits, e.start ≤ e.stop := fun e he => (le_of_mem_kept he).1
  obtain ⟨heq, hsome⟩ := foldlM_replace?_eq (t := t) (descending_kept t.bytes (inOrder edits)) hle
  refine ⟨_, _, hsettled, heq, ?_, fun hfits hapart => ⟨?_, fun edits' hperm => ?_⟩⟩
  · simp only [List.mem_reverse]
    exact hsome
  · exact hsettled.dropped_eq_nil hfits hapart
  · exact applyAll?_eq_of_perm hfits hapart hperm

/-- In a text with a letter of two bytes, two edits keep apart, one of them behind the letter. Both
are kept in whichever order they are given. -/
theorem applyAll?_isSplice_of_two :
    let t : Text := "naïve".toList
    let edits : List Edit := [⟨4, 6, "ff".toList⟩, ⟨0, 2, []⟩]
    (∀ e ∈ edits, Fits t e) ∧ edits.Pairwise Apart ∧
      (∃ kept, IsSettled t edits kept [] ∧ applyAll? t edits = spliceFrom? t 0 t.bytes kept) ∧
      applyAll? t edits.reverse = applyAll? t edits := by
  intro t edits
  have hfits : ∀ e ∈ edits, Fits t e := by
    simp only [edits, List.forall_mem_cons, List.not_mem_nil, false_implies, implies_true, and_true]
    exact ⟨⟨"ve".toList, by decide, ⟨"naï".toList, [], by decide, by decide⟩, by decide⟩,
      ⟨"na".toList, by decide, ⟨[], "ïve".toList, by decide, by decide⟩, by decide⟩⟩
  have hapart : edits.Pairwise Apart := by
    simp only [edits, Apart, List.pairwise_cons, List.mem_singleton, forall_eq]
    simp
  obtain ⟨kept, dropped, hsettled, heq, -, hall⟩ := applyAll?_isSplice t edits
  obtain ⟨rfl, hperm⟩ := hall hfits hapart
  exact ⟨hfits, hapart, ⟨kept, hsettled, heq⟩, hperm _ edits.reverse_perm⟩

end ImageMigration.Edit
