/-
The edits of a plan.

The references of a value come one after the other, and the strings of a source keep apart. So all
exchanges of extensions agree, and each edit of a plan is applied.

* `Literal.KeepApart`: what a parser tells about the strings of a source;
* `Literal.AreStrings`, `areStrings_map_collected`: what is known once they are taken from it;
* `fits_valueEdits`, `agree_valueEdits`: the exchanges in one value;
* `Plan.fits_ofLiterals`, `Plan.agree_ofLiterals`: **all edits of a plan fit and agree**;
* `Plan.edited_ofLiterals`: so a plan can be carried out.
-/
import ImageMigration.Plan
import ImageMigration.Proofs.Edit.Apply
import ImageMigration.Proofs.Reference.Place

namespace ImageMigration

open Text (IsAt)

/-! ### Exchanges in a value -/

section Swaps

variable {lookup : Lookup} {site : Site} {value : Text} {r r' : Reference} {swap : Edit}

namespace Reference

/-- Two references in a value are the same or keep apart. -/
lemma eq_or_apart_of_mem_ofValue (h : r ∈ ofValue value) (h' : r' ∈ ofValue value) :
    r = r' ∨ r.offset + r.raw.bytes ≤ r'.offset ∨ r'.offset + r'.raw.bytes ≤ r.offset := by
  have hpairs := pairwise_ofValue value
  have hall : ∀ x ∈ ofValue value, ∀ y ∈ ofValue value,
      x = y ∨ x.offset + x.raw.bytes ≤ y.offset ∨ y.offset + y.raw.bytes ≤ x.offset :=
    List.Pairwise.forall_of_forall_of_flip (fun _ _ => Or.inl rfl)
      (hpairs.imp fun hab => Or.inr (Or.inl hab)) (hpairs.imp fun hab => Or.inr (Or.inr hab))
  exact hall r h r' h'

/-- An exchange takes the place of the extension of a reference. -/
lemma swap?_eq_some_iff :
    r.swap? lookup site = some swap ↔
      ∃ converted extension, lookup.match? r site = some converted ∧
        converted.extension? = some extension ∧
        r.extensionRange? = some (swap.start, swap.stop) ∧ swap.replacement = '.' :: extension := by
  simp only [swap?, Option.bind_eq_bind, Option.bind_eq_some_iff, Prod.exists, Option.some.injEq]
  constructor
  · rintro ⟨converted, hmatch, start, stop, hrange, extension, hext, rfl⟩
    exact ⟨converted, extension, hmatch, hext, hrange, rfl⟩
  · rintro ⟨converted, extension, hmatch, hext, hrange, hswap⟩
    exact ⟨converted, hmatch, swap.start, swap.stop, hrange, extension, hext, by rw [← hswap]⟩

/-- The extension of a reference is a piece of it. -/
lemma fits_of_swap? (hr : r ∈ ofValue value) (h : r.swap? lookup site = some swap) :
    swap.Fits value ∧ r.offset ≤ swap.start ∧ swap.stop ≤ r.offset + r.raw.bytes := by
  obtain ⟨stem, e, hclean, hne, hrange⟩ := exists_extension hr
  obtain ⟨-, -, -, -, hrange', -⟩ := swap?_eq_some_iff.mp h
  rw [hrange, Option.some.injEq, Prod.mk.injEq] at hrange'
  have hraw : r.raw = stem ++ e ++ r.query := by rw [raw_eq_of_mem_ofValue hr, hclean]
  have hinner : IsAt r.raw stem.bytes e := ⟨stem, r.query, hraw, rfl⟩
  have hat := (isAt_of_mem_ofValue hr).trans hinner
  have hlen : r.raw.bytes = stem.bytes + e.bytes + r.query.bytes := by
    rw [hraw, Text.bytes_append, Text.bytes_append]
  refine ⟨⟨e, hne, ?_, ?_⟩, ?_, ?_⟩
  · rwa [← hrange'.1]
  · rw [← hrange'.1, hrange'.2]
  · omega
  · omega

end Reference

lemma mem_valueEdits :
    swap ∈ valueEdits lookup site value ↔
      ∃ r ∈ Reference.ofValue value, r.swap? lookup site = some swap := by
  rw [valueEdits, List.mem_filterMap]

lemma fits_valueEdits : ∀ e ∈ valueEdits lookup site value, e.Fits value := by
  intro e he
  obtain ⟨r, hr, hswap⟩ := mem_valueEdits.mp he
  exact (Reference.fits_of_swap? hr hswap).1

lemma agree_valueEdits : Edit.Agree (valueEdits lookup site value) := by
  intro d hd e he
  obtain ⟨r, hr, hswap⟩ := mem_valueEdits.mp hd
  obtain ⟨r', hr', hswap'⟩ := mem_valueEdits.mp he
  rcases Reference.eq_or_apart_of_mem_ofValue hr hr' with rfl | happart
  · exact Or.inl (Option.some.inj (hswap.symm.trans hswap'))
  · have hin := (Reference.fits_of_swap? hr hswap).2
    have hin' := (Reference.fits_of_swap? hr' hswap').2
    refine Or.inr ?_
    rw [Edit.Apart]
    omega

end Swaps

/-! ### Strings of a source -/

namespace Literal

/-- A string stands in a source at a range between characters and, when it is verbatim, with its
value between the quotes. -/
structure StandsIn (source : Text) (span : Span) (value : Text) (verbatim : Bool) : Prop where
  bounds : (Text.slice? span.start span.stop source).isSome = true
  interior : verbatim = true → Text.slice? (span.start + 1) (span.stop - 1) source = some value

/-- What a parser tells about the strings of a source: their ranges lie between characters, and any
two of them are the same or keep apart. -/
structure KeepApart (source : Text) (literals : List Literal) : Prop where
  bounds : ∀ span value verbatim, .string span value verbatim ∈ literals →
    (Text.slice? span.start span.stop source).isSome = true
  apart : ∀ span value verbatim span' value' verbatim',
    .string span value verbatim ∈ literals → .string span' value' verbatim' ∈ literals →
      Literal.string span value verbatim = .string span' value' verbatim' ∨
        span.stop ≤ span'.start ∨ span'.stop ≤ span.start

/-- The strings of a source keep apart, and are verbatim only where the source shows their value. -/
structure AreStrings (source : Text) (literals : List Literal) : Prop extends
    KeepApart source literals where
  interior : ∀ span value, .string span value true ∈ literals →
    Text.slice? (span.start + 1) (span.stop - 1) source = some value

variable {source value : Text} {span : Span} {verbatim : Bool} {literals : List Literal}

lemma StandsIn.exists_piece (h : StandsIn source span value verbatim) :
    ∃ piece : Text, IsAt source span.start piece ∧ span.start + piece.bytes = span.stop := by
  obtain ⟨piece, hpiece⟩ := Option.isSome_iff_exists.mp h.bounds
  obtain ⟨a, b, hsource, ha, hstop⟩ := Text.slice?_eq_some_iff.mp hpiece
  exact ⟨piece, ⟨a, b, hsource, ha⟩, hstop⟩

/-- One string keeps apart from itself. -/
lemma KeepApart.singleton (h : (Text.slice? span.start span.stop source).isSome = true) :
    KeepApart source [.string span value verbatim] := by
  refine ⟨fun span' value' verbatim' hl => ?_, fun _ _ _ _ _ _ hl hl' => ?_⟩
  · rw [List.mem_singleton, Literal.string.injEq] at hl
    obtain ⟨rfl, rfl, rfl⟩ := hl
    exact h
  · exact Or.inl ((List.mem_singleton.mp hl).trans (List.mem_singleton.mp hl').symm)

lemma AreStrings.standsIn (h : AreStrings source literals)
    (hl : .string span value verbatim ∈ literals) : StandsIn source span value verbatim := by
  refine ⟨h.bounds span value verbatim hl, fun hverbatim => ?_⟩
  subst hverbatim
  exact h.interior span value hl

/-- Strings are verbatim where they are taken from, as far as they are told to be. -/
lemma areStrings_map_collected (h : KeepApart source (literals.map (collected source))) :
    AreStrings source (literals.map (collected source)) := by
  refine ⟨h, fun span value hl => ?_⟩
  obtain ⟨l, -, hcollected⟩ := List.mem_map.mp hl
  cases l with
  | template span' chunks => exact absurd hcollected (by simp [collected])
  | string span' value' verbatim' =>
      rw [collected, Literal.string.injEq] at hcollected
      obtain ⟨rfl, rfl, hverbatim⟩ := hcollected
      rw [isVerbatimIn, Bool.and_eq_true, beq_iff_eq] at hverbatim
      exact hverbatim.2

/-- The text between the quotes leaves room for the quotes. -/
lemma interior_place {interior : Text}
    (h : Text.slice? (span.start + 1) (span.stop - 1) source = some interior) :
    IsAt source (span.start + 1) interior ∧ span.start + 1 + interior.bytes + 1 = span.stop := by
  obtain ⟨a, b, hsource, ha, hstop⟩ := Text.slice?_eq_some_iff.mp h
  exact ⟨⟨a, b, hsource, ha⟩, by omega⟩

end Literal

/-! ### Plans -/

namespace Plan

variable {lookup : Lookup} {site : Site} {source value : Text} {span : Span} {verbatim : Bool}
  {literals : List Literal} {r : Reference} {swap e : Edit}

lemma fits_shift {offset : Nat} (hat : IsAt source offset value) (h : swap.Fits value) :
    (swap.shift offset).Fits source := by
  obtain ⟨piece, hne, hpiece, hstop⟩ := h
  refine ⟨piece, hne, hat.trans hpiece, ?_⟩
  simp only [Edit.shift]
  omega

/-- What happens to a string with exchanges in its value. -/
lemma ofSwaps_cases (source : Text) (span : Span) (value : Text) (verbatim : Bool)
    {swaps : List Edit} (hne : swaps ≠ []) :
    (verbatim = true ∧
        ofSwaps source span value verbatim swaps = ⟨swaps.map (Edit.shift (span.start + 1)), 0⟩) ∨
      (verbatim = false ∧ '\\' ∈ interior source span ∧
        ofSwaps source span value verbatim swaps
          = ⟨(requoted? source span value swaps).toList, 0⟩) ∨
      (verbatim = false ∧ '\\' ∉ interior source span ∧
        ofSwaps source span value verbatim swaps = ⟨[], swaps.length⟩) := by
  have hsome : ¬ swaps.isEmpty = true := by simpa using hne
  rw [ofSwaps, if_neg hsome]
  cases verbatim with
  | true => exact Or.inl ⟨rfl, rfl⟩
  | false =>
      by_cases hback : '\\' ∈ interior source span
      · exact Or.inr (Or.inl ⟨rfl, hback, by simp [hback]⟩)
      · exact Or.inr (Or.inr ⟨rfl, hback, by simp [hback]⟩)

/-- A string with an escape holds more than its quotes. -/
lemma start_lt_stop_of_escape (h : '\\' ∈ interior source span) : span.start < span.stop := by
  rw [interior] at h
  cases hs : Text.slice? (span.start + 1) (span.stop - 1) source with
  | none => rw [hs] at h; exact absurd h (by simp)
  | some i =>
      have hplace := (Literal.interior_place hs).2
      omega

/-- An edit for a string stays in the range of the string. -/
lemma fits_ofLiteral (h : Literal.StandsIn source span value verbatim)
    (he : e ∈ (ofLiteral lookup site source (.string span value verbatim)).edits) :
    e.Fits source ∧ span.start ≤ e.start ∧ e.stop ≤ span.stop := by
  rw [ofLiteral] at he
  by_cases hne : valueEdits lookup site value = []
  · rw [hne] at he
    exact absurd he (by simp [ofSwaps, empty])
  rcases ofSwaps_cases source span value verbatim hne with
    ⟨hverb, hplan⟩ | ⟨-, hback, hplan⟩ | ⟨-, -, hplan⟩
  · rw [hplan] at he
    obtain ⟨swap, hswap, rfl⟩ := List.mem_map.mp he
    obtain ⟨hat, hstop⟩ := Literal.interior_place (h.interior hverb)
    have hfit := fits_valueEdits swap hswap
    have hle := hfit.le_bytes
    refine ⟨fits_shift hat hfit, ?_, ?_⟩ <;> simp only [Edit.shift] <;> omega
  · rw [hplan, Option.mem_toList] at he
    obtain ⟨v, -, rfl⟩ := Option.map_eq_some_iff.mp he
    obtain ⟨piece, hat, hstop⟩ := h.exists_piece
    have hlt := start_lt_stop_of_escape hback
    refine ⟨⟨piece, ?_, hat, hstop⟩, Nat.le_refl _, Nat.le_refl _⟩
    rintro rfl
    simp only [Text.bytes_nil] at hstop
    omega
  · rw [hplan] at he
    exact absurd he (by simp)

/-- The edits for one string agree. -/
lemma agree_ofLiteral (lookup : Lookup) (site : Site) (source : Text) (span : Span) (value : Text)
    (verbatim : Bool) :
    Edit.Agree (ofLiteral lookup site source (.string span value verbatim)).edits := by
  intro d hd e he
  rw [ofLiteral] at hd he
  by_cases hne : valueEdits lookup site value = []
  · rw [hne] at hd
    exact absurd hd (by simp [ofSwaps, empty])
  rcases ofSwaps_cases source span value verbatim hne with
    ⟨-, hplan⟩ | ⟨-, -, hplan⟩ | ⟨-, -, hplan⟩
  · rw [hplan] at hd he
    obtain ⟨x, hx, rfl⟩ := List.mem_map.mp hd
    obtain ⟨y, hy, rfl⟩ := List.mem_map.mp he
    rcases agree_valueEdits x hx y hy with rfl | happart
    · exact Or.inl rfl
    · refine Or.inr ?_
      simp only [Edit.Apart, Edit.shift] at happart ⊢
      omega
  · rw [hplan, Option.mem_toList] at hd he
    exact Or.inl (Option.some.inj (hd.symm.trans he))
  · rw [hplan] at hd
    exact absurd hd (by simp)

lemma mem_edits_ofLiterals :
    e ∈ (ofLiterals lookup site source literals).edits ↔
      ∃ l ∈ literals, e ∈ (ofLiteral lookup site source l).edits := by
  induction literals with
  | nil => simp [ofLiterals, empty]
  | cons l literals ih =>
      have hsplit : (ofLiterals lookup site source (l :: literals)).edits
          = (ofLiteral lookup site source l).edits
            ++ (ofLiterals lookup site source literals).edits := rfl
      rw [hsplit, List.mem_append, ih]
      simp

/-- An edit of a plan is an edit for a string. -/
lemma exists_string_of_mem_edits (he : e ∈ (ofLiterals lookup site source literals).edits) :
    ∃ span value verbatim, .string span value verbatim ∈ literals ∧
      e ∈ (ofLiteral lookup site source (.string span value verbatim)).edits := by
  obtain ⟨l, hl, he⟩ := mem_edits_ofLiterals.mp he
  cases l with
  | string span value verbatim => exact ⟨span, value, verbatim, hl, he⟩
  | template span chunks => exact absurd he (by simp [ofLiteral, empty])

lemma unedited_ofLiteral_of_zero (h : (ofLiterals lookup site source literals).unedited = 0)
    {l : Literal} (hl : l ∈ literals) : (ofLiteral lookup site source l).unedited = 0 := by
  induction literals with
  | nil => exact absurd hl (by simp)
  | cons x literals ih =>
      have hsum : (ofLiterals lookup site source (x :: literals)).unedited
          = (ofLiteral lookup site source x).unedited
            + (ofLiterals lookup site source literals).unedited := rfl
      rcases List.mem_cons.mp hl with rfl | hrest
      · omega
      · exact ih (by omega) hrest

variable (hs : Literal.AreStrings source literals)

include hs

/-- **The edits of a plan fit into the source.** -/
lemma fits_ofLiterals : ∀ e ∈ (ofLiterals lookup site source literals).edits, e.Fits source := by
  intro e he
  obtain ⟨span, value, verbatim, hl, he⟩ := exists_string_of_mem_edits he
  exact (fits_ofLiteral (hs.standsIn hl) he).1

/-- An edit of a plan belongs to a given string or stays out of its range. -/
lemma mem_or_apart_of_mem_edits (hl : .string span value verbatim ∈ literals)
    (he : e ∈ (ofLiterals lookup site source literals).edits) :
    e ∈ (ofLiteral lookup site source (.string span value verbatim)).edits ∨
      e.stop ≤ span.start ∨ span.stop ≤ e.start := by
  obtain ⟨span', value', verbatim', hl', he⟩ := exists_string_of_mem_edits he
  have hin := (fits_ofLiteral (hs.standsIn hl') he).2
  rcases hs.apart _ _ _ _ _ _ hl' hl with heq | happart
  · rw [heq] at he
    exact Or.inl he
  · right
    omega

/-- **The edits of a plan agree.** -/
lemma agree_ofLiterals : Edit.Agree (ofLiterals lookup site source literals).edits := by
  intro d hd e he
  obtain ⟨span, value, verbatim, hl, hd⟩ := exists_string_of_mem_edits hd
  rcases mem_or_apart_of_mem_edits hs hl he with hsame | happart
  · exact agree_ofLiteral _ _ _ _ _ _ d hd e hsame
  · have hin := (fits_ofLiteral (hs.standsIn hl) hd).2
    refine Or.inr ?_
    rw [Edit.Apart]
    omega

/-- The edits for each literal are applied. -/
lemma mem_applied_ofLiterals {l : Literal} (hl : l ∈ literals)
    (he : e ∈ (ofLiteral lookup site source l).edits) :
    e ∈ Edit.applied source (ofLiterals lookup site source literals).edits :=
  (Edit.mem_applied_iff (fits_ofLiterals hs) (agree_ofLiterals hs)).mpr
    (mem_edits_ofLiterals.mpr ⟨l, hl, he⟩)

/-- The source with the edits of its plan. -/
lemma edited_ofLiterals (lookup : Lookup) (site : Site) :
    ∃ text, Edit.applyAll? source (ofLiterals lookup site source literals).edits = some text ∧
      Edit.Spliced source (Edit.applied source (ofLiterals lookup site source literals).edits)
        text :=
  Edit.applyAll?_of_fits (fits_ofLiterals hs)

end Plan

end ImageMigration
