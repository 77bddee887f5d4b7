/-
What a plan does to a reference.

A reference to a converted image gets another extension, in place or in the value that its string is
written again with. A reference without an exchange stands in the new text as it stood in the old
one, at a place that the edits in front of it have moved.

* `Plan.WritesAgain`, `Plan.exists_writesAgain`: a string with escapes is written again, as a
  literal that denotes its new value;
* `Plan.Carries`, `Plan.carries_of_swap?`: the exchange is among the edits that are applied;
* `Plan.Keeps`, `Plan.keeps_of_swap?_eq_none`: the reference stays as it was.
-/
import ImageMigration.Proofs.Plan.Edits
import ImageMigration.Proofs.Script.Quoting

namespace ImageMigration.Plan

open Text (IsAt)

/-- A string is written again when edits are applied to its value: the new value is the old one with
these edits, and one of the edits that are applied to the source puts in the place of the string a
literal that denotes the new value. -/
structure WritesAgain (source : Text) (edits : List Edit) (span : Span) (value : Text)
    (swaps : List Edit) (mark : Char) (value' : Text) : Prop where
  spliced : Edit.Spliced value (Edit.applied value swaps) value'
  denotes : Script.StringLiteral mark (Script.quote mark value') (Script.unitsOf value') []
  applied : ⟨span.start, span.stop, Script.quote mark value'⟩ ∈ Edit.applied source edits

/-- An exchange in the value of a string is among the edits that are applied to its source: as an
edit of its own where the source shows the value, or in the value that the string is written again
with. -/
inductive Carries (source : Text) (edits : List Edit) (span : Span) (value : Text) (swap : Edit) :
    Prop where
  | inPlace (hat : IsAt source (span.start + 1) value)
      (happlied : ⟨span.start + 1 + swap.start, span.start + 1 + swap.stop, swap.replacement⟩
        ∈ Edit.applied source edits)
  | rewritten {swaps : List Edit} {mark : Char} {value' : Text}
      (hswap : swap ∈ Edit.applied value swaps)
      (hagain : WritesAgain source edits span value swaps mark value')

/-- A reference in the value of a string stands in the edited text as it was: the source shows the
value and no edit met the reference; or no edit met the string; or the string is written again, with
a value in which no exchange met the reference. -/
inductive Keeps (source text : Text) (edits : List Edit) (span : Span) (value : Text)
    (r : Reference) : Prop where
  | inPlace (hat : IsAt source (span.start + 1) value)
      (hkept : IsAt text (Edit.moved (Edit.applied source edits) (span.start + 1 + r.offset)) r.raw)
  | untouched {piece : Text} (hpiece : Text.slice? span.start span.stop source = some piece)
      (hkept : IsAt text (Edit.moved (Edit.applied source edits) span.start) piece)
  | rewritten {swaps : List Edit} {mark : Char} {value' : Text}
      (hagain : WritesAgain source edits span value swaps mark value')
      (hkept : IsAt value' (Edit.moved (Edit.applied value swaps) r.offset) r.raw)
      (hquoted : IsAt text (Edit.moved (Edit.applied source edits) span.start)
        (Script.quote mark value'))

variable {lookup : Lookup} {site : Site} {source text value : Text} {span : Span} {verbatim : Bool}
  {literals : List Literal} {r : Reference} {swap e : Edit}

/-! ### Strings that are written again -/

lemma openingQuote_cases (source : Text) (span : Span) :
    openingQuote source span = '\'' ∨ openingQuote source span = '"' := by
  rw [openingQuote]
  split
  · exact Or.inl rfl
  · exact Or.inr rfl

/-- **A string with escapes is written again** when it has exchanges in its value. -/
lemma exists_writesAgain (hs : Literal.AreStrings source literals)
    (hl : .string span value verbatim ∈ literals)
    (hplan : ofLiteral lookup site source (.string span value verbatim)
      = ⟨(requoted? source span value (valueEdits lookup site value)).toList, 0⟩) :
    ∃ mark value', WritesAgain source (ofLiterals lookup site source literals).edits span value
      (valueEdits lookup site value) mark value' := by
  have hfits : ∀ e ∈ valueEdits lookup site value, e.Fits value := fits_valueEdits
  obtain ⟨value', happly, hspliced⟩ := Edit.applyAll?_of_fits hfits
  refine ⟨openingQuote source span, value', hspliced,
    Script.stringLiteral_of_quote (openingQuote_cases source span) value',
    mem_applied_ofLiterals hs hl ?_⟩
  rw [hplan, requoted?, happly]
  exact List.mem_singleton_self _

/-! ### References with an exchange -/

/-- **A reference to a converted image is updated,** unless the plan counts it as left as it is. -/
lemma carries_of_swap? (hs : Literal.AreStrings source literals)
    (hl : .string span value verbatim ∈ literals) (hr : r ∈ Reference.ofValue value)
    (hswap : r.swap? lookup site = some swap)
    (hunedited : (ofLiterals lookup site source literals).unedited = 0) :
    Carries source (ofLiterals lookup site source literals).edits span value swap := by
  have hmem : swap ∈ valueEdits lookup site value := mem_valueEdits.mpr ⟨r, hr, hswap⟩
  have hzero := unedited_ofLiteral_of_zero hunedited hl
  rcases ofSwaps_cases source span value verbatim (List.ne_nil_of_mem hmem) with
    ⟨hverb, hplan⟩ | ⟨-, -, hplan⟩ | ⟨-, -, hplan⟩
  · obtain ⟨hat, -⟩ := Literal.interior_place ((hs.standsIn hl).interior hverb)
    refine .inPlace hat (mem_applied_ofLiterals hs hl ?_)
    rw [ofLiteral, hplan]
    exact List.mem_map.mpr ⟨swap, hmem, rfl⟩
  · obtain ⟨mark, value', hagain⟩ := exists_writesAgain hs hl hplan
    exact .rewritten ((Edit.mem_applied_iff fits_valueEdits agree_valueEdits).mpr hmem) hagain
  · -- every exchange of such a string is counted
    rw [ofLiteral, hplan] at hzero
    exact absurd (List.length_eq_zero_iff.mp hzero) (List.ne_nil_of_mem hmem)

/-! ### References without an exchange -/

/-- An exchange for another reference keeps out of a reference without one. -/
lemma apart_of_swap?_eq_none (hr : r ∈ Reference.ofValue value)
    (hnone : r.swap? lookup site = none) (he : e ∈ valueEdits lookup site value) :
    e.stop ≤ r.offset ∨ r.offset + r.raw.bytes ≤ e.start := by
  obtain ⟨r', hr', hswap⟩ := mem_valueEdits.mp he
  have hin := (Reference.fits_of_swap? hr' hswap).2
  rcases Reference.eq_or_apart_of_mem_ofValue hr hr' with rfl | happart
  · rw [hnone] at hswap
    exact absurd hswap (by simp)
  · omega

/-- Without edits every reference stays. -/
lemma keeps_of_no_edits (hs : Literal.AreStrings source literals)
    (hl : .string span value verbatim ∈ literals) : Keeps source source [] span value r := by
  obtain ⟨piece, hpiece⟩ := Option.isSome_iff_exists.mp (hs.standsIn hl).bounds
  obtain ⟨a, b, hsource, ha, -⟩ := Text.slice?_eq_some_iff.mp hpiece
  refine .untouched hpiece ⟨a, b, hsource, ?_⟩
  rw [Edit.applied_nil, Edit.moved_nil, ha]

/-- A string without edits of its own stays as a whole. -/
lemma keeps_of_no_own_edits (hs : Literal.AreStrings source literals)
    (hl : .string span value verbatim ∈ literals)
    (hspliced : Edit.Spliced source
      (Edit.applied source (ofLiterals lookup site source literals).edits) text)
    (hnil : (ofLiteral lookup site source (.string span value verbatim)).edits = []) :
    Keeps source text (ofLiterals lookup site source literals).edits span value r := by
  obtain ⟨piece, hat, hstop⟩ := (hs.standsIn hl).exists_piece
  have hpiece : Text.slice? span.start span.stop source = some piece := by
    rw [← hstop]
    exact Text.isAt_iff_slice?.mp hat
  refine .untouched hpiece (hspliced.isAt_moved hat fun e he => ?_)
  rcases mem_or_apart_of_mem_edits hs hl (Edit.mem_of_mem_applied he) with hown | hout
  · rw [hnil] at hown
    exact absurd hown (by simp)
  · omega

/-- **A reference without an exchange stays as it was.** -/
lemma keeps_of_swap?_eq_none (hs : Literal.AreStrings source literals)
    (hl : .string span value verbatim ∈ literals) (hr : r ∈ Reference.ofValue value)
    (hnone : r.swap? lookup site = none)
    (htext : Edit.applyAll? source (ofLiterals lookup site source literals).edits = some text) :
    Keeps source text (ofLiterals lookup site source literals).edits span value r := by
  obtain ⟨text', htext', hspliced⟩ := edited_ofLiterals hs lookup site
  rw [htext, Option.some.injEq] at htext'
  subst htext'
  by_cases hne : valueEdits lookup site value = []
  · exact keeps_of_no_own_edits hs hl hspliced (by rw [ofLiteral, hne]; rfl)
  rcases ofSwaps_cases source span value verbatim hne with
    ⟨hverb, hplan⟩ | ⟨-, hback, hplan⟩ | ⟨-, -, hplan⟩
  · obtain ⟨hat, hstop⟩ := Literal.interior_place ((hs.standsIn hl).interior hverb)
    have hraw := Reference.isAt_of_mem_ofValue hr
    refine .inPlace hat (hspliced.isAt_moved (hat.trans hraw) fun e he => ?_)
    have hle := hraw.le_bytes
    rcases mem_or_apart_of_mem_edits hs hl (Edit.mem_of_mem_applied he) with hown | hout
    · rw [ofLiteral, hplan] at hown
      obtain ⟨swap, hmem, rfl⟩ := List.mem_map.mp hown
      have hoff := apart_of_swap?_eq_none hr hnone hmem
      simp only [Edit.shift]
      omega
    · omega
  · obtain ⟨mark, value', hagain⟩ := exists_writesAgain hs hl hplan
    refine .rewritten hagain ?_
      (hspliced.isAt_replacement hagain.applied (start_lt_stop_of_escape hback))
    refine hagain.spliced.isAt_moved (Reference.isAt_of_mem_ofValue hr) fun e he => ?_
    exact apart_of_swap?_eq_none hr hnone (Edit.mem_of_mem_applied he)
  · exact keeps_of_no_own_edits hs hl hspliced (by rw [ofLiteral, hplan])

end ImageMigration.Plan
