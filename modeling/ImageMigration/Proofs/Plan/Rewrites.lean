/-
What a plan makes of a source.

Each string with a converted reference is rewritten by itself: between its quotes where the source
shows its value, anew where it is written with escapes. The edits of a plan are finer than that, as
a string may hold several references; put together they rewrite the strings and nothing else.

* `Literal.AreQuoted`: what a parser tells about the strings of a source;
* `Literal.respelled`, `Literal.Rewrites`: how a string is rewritten, whatever stands around it;
* `Plan.exists_rewrites`: the rewritings of the strings, from the back to the front;
* `Plan.applyAll?_of_spliced`: **the edits of a plan are the rewritings of the strings**;
* `Plan.rewrites_strings_only`: **the whole statement**, with all that stays in place.
-/
import ImageMigration.Proofs.Edit.Splice
import ImageMigration.Proofs.Plan.References

namespace ImageMigration

open Text (IsAt)

/-! ### Strings between quotes -/

namespace Literal

/-- A string stands between quotes of one kind, with the given text inside of them. -/
structure IsQuoted (source : Text) (span : Span) (mark : Char) (interior : Text) : Prop where
  mark_mem : mark ∈ ['\'', '"']
  slice : Text.slice? span.start span.stop source = some (mark :: interior ++ [mark])

/-- What a parser tells about the strings of a source: each stands between quotes, it is verbatim
when its value is what stands there, and any two of them are the same or keep apart. -/
structure AreQuoted (source : Text) (literals : List Literal) : Prop where
  quoted : ∀ span value verbatim, .string span value verbatim ∈ literals →
    ∃ mark interior, IsQuoted source span mark interior ∧ (verbatim = true ↔ interior = value)
  apart : ∀ span value verbatim span' value' verbatim',
    .string span value verbatim ∈ literals → .string span' value' verbatim' ∈ literals →
      Literal.string span value verbatim = .string span' value' verbatim' ∨
        span.stop ≤ span'.start ∨ span'.stop ≤ span.start

/-- How a string is written when its value becomes another: with the new value between its quotes
where they show the old one, anew where there are escapes between them, and else as before. -/
def respelled (mark : Char) (interior value value' : Text) : Text :=
  if interior = value then mark :: value' ++ [mark]
  else if '\\' ∈ interior then Script.quote mark value'
  else mark :: interior ++ [mark]

/-- The rewriting of a string with converted references: its new value has their extensions
exchanged, and it is written accordingly. -/
inductive Rewrites (lookup : Lookup) (site : Site) (source : Text) : Literal → Edit → Prop where
  | string {span : Span} {value : Text} {verbatim : Bool} {mark : Char} {interior value' : Text}
      (hswaps : valueEdits lookup site value ≠ []) (hquoted : IsQuoted source span mark interior)
      (hvalue : Edit.Spliced value (valueEdits lookup site value).reverse value') :
      Rewrites lookup site source (.string span value verbatim)
        ⟨span.start, span.stop, respelled mark interior value value'⟩

variable {lookup : Lookup} {site : Site} {source interior interior' value : Text} {span : Span}
  {mark mark' : Char} {verbatim : Bool} {literals : List Literal} {l l' : Literal} {d e : Edit}

namespace IsQuoted

lemma utf8Size_mark (h : IsQuoted source span mark interior) : mark.utf8Size = 1 := by
  have hmark := h.mark_mem
  simp only [List.mem_cons, List.not_mem_nil, or_false] at hmark
  rcases hmark with rfl | rfl <;> rfl

/-- A quoted string around which the source is cut. -/
lemma exists_append (h : IsQuoted source span mark interior) :
    ∃ front back, source = front ++ (mark :: interior ++ [mark]) ++ back ∧
      front.bytes = span.start ∧ span.start + interior.bytes + 2 = span.stop := by
  obtain ⟨front, back, hsource, hstart, hstop⟩ := Text.slice?_eq_some_iff.mp h.slice
  have hmark := h.utf8Size_mark
  refine ⟨front, back, hsource, hstart, ?_⟩
  simp only [List.cons_append, Text.bytes_cons, Text.bytes_append, Text.bytes_nil] at hstop
  omega

/-- What stands between the quotes is the interior that a plan looks at. -/
lemma interior_slice (h : IsQuoted source span mark interior) :
    Text.slice? (span.start + 1) (span.stop - 1) source = some interior := by
  obtain ⟨front, back, hsource, hstart, hstop⟩ := h.exists_append
  have hmark := h.utf8Size_mark
  refine Text.slice?_eq_some_iff.mpr ⟨front ++ [mark], [mark] ++ back, ?_, ?_, ?_⟩
  · rw [hsource]
    simp
  · rw [Text.bytes_append, Text.bytes_cons, Text.bytes_nil]
    omega
  · omega

lemma interior_eq (h : IsQuoted source span mark interior) :
    Plan.interior source span = interior := by
  rw [Plan.interior, h.interior_slice]
  rfl

/-- The quote in front of the string is the one that a plan writes it with. -/
lemma openingQuote_eq (h : IsQuoted source span mark interior) :
    Plan.openingQuote source span = mark := by
  obtain ⟨front, back, hsource, hstart, -⟩ := h.exists_append
  have hcut : Text.splitAt? span.start source
      = some (front, mark :: (interior ++ [mark] ++ back)) :=
    Text.splitAt?_eq_some_iff.mpr ⟨by rw [hsource]; simp, hstart⟩
  have hmark := h.mark_mem
  simp only [List.mem_cons, List.not_mem_nil, or_false] at hmark
  rw [Plan.openingQuote, hcut]
  rcases hmark with rfl | rfl
  · rfl
  · rfl

lemma unique (h : IsQuoted source span mark interior) (h' : IsQuoted source span mark' interior') :
    mark' = mark ∧ interior' = interior :=
  ⟨h'.openingQuote_eq.symm.trans h.openingQuote_eq, h'.interior_eq.symm.trans h.interior_eq⟩

/-- The text of a quoted string is what stands in its range. -/
lemma eq_of_isAt (h : IsQuoted source span mark interior) {piece : Text}
    (hat : IsAt source span.start piece) (hstop : span.start + piece.bytes = span.stop) :
    piece = mark :: interior ++ [mark] := by
  have hslice := Text.isAt_iff_slice?.mp hat
  rw [hstop, h.slice, Option.some.injEq] at hslice
  exact hslice.symm

end IsQuoted

/-- Quoted strings keep apart, and show their value where they are verbatim. -/
lemma AreQuoted.areStrings (h : AreQuoted source literals) : AreStrings source literals where
  bounds span value verbatim hl := by
    obtain ⟨mark, interior, hquoted, -⟩ := h.quoted span value verbatim hl
    rw [hquoted.slice]
    rfl
  apart := h.apart
  interior span value hl := by
    obtain ⟨mark, interior, hquoted, hverbatim⟩ := h.quoted span value true hl
    rw [hquoted.interior_slice, hverbatim.mp rfl]

/-! ### Rewritings -/

/-- The exchanges of a value, carried out from the back to the front, are what a plan applies. -/
lemma applyAll?_valueEdits {value' : Text}
    (h : Edit.Spliced value (valueEdits lookup site value).reverse value') :
    Edit.applyAll? value (valueEdits lookup site value) = some value' :=
  h.applyAll?_eq fits_valueEdits agree_valueEdits fun _ => List.mem_reverse

/-- The exchanges of a value can be carried out. -/
lemma exists_new_value (lookup : Lookup) (site : Site) (value : Text) :
    ∃ value', Edit.Spliced value (valueEdits lookup site value).reverse value' := by
  have hdesc : Edit.Descending (valueEdits lookup site value).reverse := by
    rw [Edit.Descending, List.pairwise_reverse, valueEdits, List.pairwise_filterMap]
    refine (Reference.pairwise_ofValue value).imp_of_mem ?_
    intro r r' hr hr' hrr d hd e he
    have hin := (Reference.fits_of_swap? hr hd).2
    have hin' := (Reference.fits_of_swap? hr' he).2
    omega
  exact Edit.exists_spliced hdesc fun e he => (fits_valueEdits e (List.mem_reverse.mp he)).spans

lemma Rewrites.replacement_eq (h : Rewrites lookup site source (.string span value verbatim) e)
    (hquoted : IsQuoted source span mark interior) :
    e.start = span.start ∧ e.stop = span.stop ∧
      ∃ value', Edit.Spliced value (valueEdits lookup site value).reverse value' ∧
        e.replacement = respelled mark interior value value' := by
  cases h with
  | @string _ _ _ mark' interior' value' hswaps hquoted' hvalue =>
      obtain ⟨rfl, rfl⟩ := hquoted.unique hquoted'
      exact ⟨rfl, rfl, value', hvalue, rfl⟩

/-- A string has one rewriting. -/
lemma Rewrites.unique (h : Rewrites lookup site source l d) (h' : Rewrites lookup site source l e) :
    d = e := by
  cases h with
  | @string span value verbatim mark interior value' hswaps hquoted hvalue =>
      obtain ⟨hstart, hstop, value'', hvalue'', hreplacement⟩ := h'.replacement_eq hquoted
      have hsame : value' = value'' := Option.some.inj
        ((applyAll?_valueEdits hvalue).symm.trans (applyAll?_valueEdits hvalue''))
      cases e
      simp only at hstart hstop hreplacement
      rw [hstart, hstop, hreplacement, hsame]

variable (hs : AreQuoted source literals)

include hs

/-- A string with converted references has a rewriting. -/
lemma AreQuoted.exists_rewrites (hl : .string span value verbatim ∈ literals)
    (hswaps : valueEdits lookup site value ≠ []) :
    ∃ e, Rewrites lookup site source (.string span value verbatim) e := by
  obtain ⟨mark, interior, hquoted, -⟩ := hs.quoted _ _ _ hl
  obtain ⟨value', hvalue⟩ := exists_new_value lookup site value
  exact ⟨_, .string hswaps hquoted hvalue⟩

/-- Two rewritings are of one string, and the same, or keep apart. -/
lemma AreQuoted.eq_or_apart (hl : l ∈ literals) (hl' : l' ∈ literals)
    (h : Rewrites lookup site source l d) (h' : Rewrites lookup site source l' e) :
    l = l' ∧ d = e ∨ Edit.Apart d e := by
  by_cases heq : l = l'
  · subst heq
    exact Or.inl ⟨rfl, h.unique h'⟩
  · cases h with
    | string hswaps hquoted hvalue =>
        cases h' with
        | string hswaps' hquoted' hvalue' =>
            exact Or.inr ((hs.apart _ _ _ _ _ _ hl hl').resolve_left heq)

/-- A rewriting replaces its string. -/
lemma AreQuoted.fits (hl : l ∈ literals) (h : Rewrites lookup site source l e) : e.Fits source := by
  cases h with
  | string hswaps hquoted hvalue =>
      obtain ⟨piece, hat, hstop⟩ := (hs.areStrings.standsIn hl).exists_piece
      refine ⟨piece, ?_, hat, hstop⟩
      rw [hquoted.eq_of_isAt hat hstop]
      simp

end Literal

/-! ### Plans -/

namespace Plan

open Literal (AreQuoted IsQuoted Rewrites respelled)

variable {lookup : Lookup} {site : Site} {source text value value' interior : Text} {span : Span}
  {mark : Char} {verbatim : Bool} {literals : List Literal} {l : Literal} {d e : Edit}
  {rewrites : List Edit}

/-- The rewritings of some literals. -/
lemma exists_list_of_rewrites (lookup : Lookup) (site : Site) (source : Text)
    (literals : List Literal) :
    ∃ rewrites : List Edit,
      ∀ e, e ∈ rewrites ↔ ∃ l ∈ literals, l.Rewrites lookup site source e := by
  induction literals with
  | nil => exact ⟨[], by simp⟩
  | cons l literals ih =>
      obtain ⟨rewrites, hmem⟩ := ih
      by_cases hl : ∃ e, l.Rewrites lookup site source e
      · obtain ⟨d, hd⟩ := hl
        refine ⟨d :: rewrites, fun e => ?_⟩
        have hfirst : e = d ↔ l.Rewrites lookup site source e :=
          ⟨fun h => h ▸ hd, fun h => h.unique hd⟩
        simp [hmem, hfirst]
      · refine ⟨rewrites, fun e => ?_⟩
        have hfirst : ¬ l.Rewrites lookup site source e := fun h => hl ⟨e, h⟩
        simp [hmem, hfirst]

/-- The rewritings of the strings can be carried out, from the back to the front. -/
lemma exists_rewrites (hs : AreQuoted source literals) (lookup : Lookup) (site : Site) :
    ∃ rewrites text, Edit.Spliced source rewrites text ∧
      ∀ e, e ∈ rewrites ↔ ∃ l ∈ literals, l.Rewrites lookup site source e := by
  obtain ⟨given, hmem⟩ := exists_list_of_rewrites lookup site source literals
  have hfits : ∀ e ∈ given, e.Fits source := by
    intro e he
    obtain ⟨l, hl, h⟩ := (hmem e).mp he
    exact hs.fits hl h
  have hagree : Edit.Agree given := by
    intro d hd e he
    obtain ⟨l, hl, h⟩ := (hmem d).mp hd
    obtain ⟨l', hl', h'⟩ := (hmem e).mp he
    exact (hs.eq_or_apart hl hl' h h').imp And.right id
  obtain ⟨text, -, hspliced⟩ := Edit.applyAll?_of_fits hfits
  exact ⟨_, text, hspliced, fun e => (Edit.mem_applied_iff hfits hagree).trans (hmem e)⟩

/-! ### The edits inside of one string -/

/-- The edits of a plan for one string, told inside of its text, write the string as they should. -/
lemma exists_inner (hquoted : IsQuoted source span mark interior)
    (hverbatim : verbatim = true ↔ interior = value) (hswaps : valueEdits lookup site value ≠ [])
    (hvalue : Edit.Spliced value (valueEdits lookup site value).reverse value') :
    ∃ inner,
      Edit.Spliced (mark :: interior ++ [mark]) inner (respelled mark interior value value') ∧
      ∀ d, d ∈ inner.map (Edit.shift span.start) ↔
        d ∈ (ofLiteral lookup site source (.string span value verbatim)).edits := by
  have hne : verbatim = false → interior ≠ value := fun hverb h => by
    rw [hverbatim.mpr h] at hverb
    exact absurd hverb (by simp)
  have happly := Literal.applyAll?_valueEdits hvalue
  rw [ofLiteral]
  rcases ofSwaps_cases source span value verbatim hswaps with
    ⟨hverb, hplan⟩ | ⟨hverb, hback, hplan⟩ | ⟨hverb, hback, hplan⟩
  · -- the source shows the value, so each exchange is an edit of its own
    have hsame := hverbatim.mp hverb
    subst hsame
    refine ⟨(valueEdits lookup site interior).reverse.map (Edit.shift 1), ?_, fun d => ?_⟩
    · rw [respelled, if_pos rfl]
      exact hvalue.between hquoted.utf8Size_mark
    · have hcomp : Edit.shift span.start ∘ Edit.shift 1 = Edit.shift (span.start + 1) :=
        funext fun e => Edit.shift_shift _ _ e
      rw [hplan, List.map_map, hcomp]
      simp
  · -- the string is written again as a whole
    rw [hquoted.interior_eq] at hback
    obtain ⟨-, -, -, -, hstop⟩ := Text.slice?_eq_some_iff.mp hquoted.slice
    refine ⟨[⟨0, Text.bytes (mark :: interior ++ [mark]), Script.quote mark value'⟩], ?_,
      fun d => ?_⟩
    · rw [respelled, if_neg (hne hverb), if_pos hback]
      exact Edit.spliced_whole _ _
    · rw [hplan, requoted?, happly, hquoted.openingQuote_eq, List.map_singleton, Edit.shift, hstop]
      simp
  · -- nothing can be done, and nothing is
    rw [hquoted.interior_eq] at hback
    refine ⟨[], ?_, by simp [hplan]⟩
    rw [respelled, if_neg (hne hverb), if_neg hback]
    exact .nil _

/-- **The edits of a plan are the rewritings of the strings,** each told by the edits inside it. -/
lemma applyAll?_of_spliced (hs : AreQuoted source literals)
    (hspliced : Edit.Spliced source rewrites text)
    (hmem : ∀ e, e ∈ rewrites ↔ ∃ l ∈ literals, l.Rewrites lookup site source e) :
    Edit.applyAll? source (ofLiterals lookup site source literals).edits = some text := by
  have hstrings := hs.areStrings
  -- an edit belongs to a rewriting when it is an edit for the same string
  obtain ⟨fine, hfine, hparts⟩ := hspliced.exists_refined
    (fun e d => ∃ l ∈ literals, l.Rewrites lookup site source e ∧
      d ∈ (ofLiteral lookup site source l).edits) (by
    intro e he piece hat hstop
    obtain ⟨l, hl, h⟩ := (hmem e).mp he
    have hpos := (hs.fits hl h).lt
    have hone : ∀ d, d ∈ (ofLiteral lookup site source l).edits ↔
        ∃ l' ∈ literals, l'.Rewrites lookup site source e ∧
          d ∈ (ofLiteral lookup site source l').edits := by
      refine fun d => ⟨fun hd => ⟨l, hl, h, hd⟩, fun ⟨l', hl', h', hd⟩ => ?_⟩
      rcases hs.eq_or_apart hl hl' h h' with ⟨rfl, -⟩ | happart
      · exact hd
      · rw [Edit.Apart] at happart
        omega
    cases h with
    | @string span value verbatim mark interior value' hswaps hquoted hvalue =>
        obtain ⟨mark', interior', hquoted', hverbatim⟩ := hs.quoted _ _ _ hl
        obtain ⟨rfl, rfl⟩ := hquoted.unique hquoted'
        obtain ⟨inner, hinner, hedits⟩ := exists_inner hquoted hverbatim hswaps hvalue
        rw [hquoted.eq_of_isAt hat hstop]
        exact ⟨inner, hinner, fun d => (hedits d).trans (hone d)⟩)
  refine hfine.applyAll?_eq (fits_ofLiterals hstrings) (agree_ofLiterals hstrings) fun d => ?_
  rw [hparts, mem_edits_ofLiterals]
  constructor
  · rintro ⟨e, -, l, hl, -, hd⟩
    exact ⟨l, hl, hd⟩
  · rintro ⟨l, hl, hd⟩
    cases l with
    | template span chunks => exact absurd hd (by simp [ofLiteral, empty])
    | string span value verbatim =>
        have hswaps : valueEdits lookup site value ≠ [] := by
          intro hnil
          rw [ofLiteral, hnil] at hd
          exact absurd hd (by simp [ofSwaps, empty])
        obtain ⟨e, h⟩ := hs.exists_rewrites hl hswaps
        exact ⟨e, (hmem e).mpr ⟨_, hl, h⟩, _, hl, h, hd⟩

/-! ### What stays in place -/

/-- The pieces of a text that no edit meets stand in the edited text, moved by the edits in front of
them. -/
def KeepsRest (t : Text) (edits : List Edit) (t' : Text) : Prop :=
  ∀ offset piece, IsAt t offset piece →
    (∀ e ∈ edits, e.stop ≤ offset ∨ offset + piece.bytes ≤ e.start) →
      IsAt t' (Edit.moved edits offset) piece

/-- The text is the source with the strings rewritten that refer to converted images, each by
itself, and with nothing else changed. -/
structure RewritesStrings (lookup : Lookup) (site : Site) (source : Text) (literals : List Literal)
    (rewrites : List Edit) (text : Text) : Prop where
  /-- The rewritings are carried out, from the back to the front. -/
  spliced : Edit.Spliced source rewrites text
  /-- They are those of the literals. -/
  mem_iff : ∀ e, e ∈ rewrites ↔ ∃ l ∈ literals, l.Rewrites lookup site source e
  /-- Each string with a converted reference has one. -/
  complete : ∀ span value verbatim, .string span value verbatim ∈ literals →
    valueEdits lookup site value ≠ [] →
      ∃ e, (Literal.string span value verbatim).Rewrites lookup site source e
  /-- What stands outside of them stays. -/
  rest : KeepsRest source rewrites text
  /-- A string without converted references stays. -/
  unmatched : ∀ span value verbatim, .string span value verbatim ∈ literals →
    valueEdits lookup site value = [] →
      ∀ written, Text.slice? span.start span.stop source = some written →
        IsAt text (Edit.moved rewrites span.start) written
  /-- A template stays, up to the strings that stand in the expressions inside of it. -/
  templates : ∀ span chunks, .template span chunks ∈ literals →
    ∀ written, Text.slice? span.start span.stop source = some written →
      (∀ e ∈ rewrites, e.stop ≤ span.start ∨ span.stop ≤ e.start ∨
        span.start ≤ e.start ∧ e.stop ≤ span.stop) →
      ∃ inner written', Edit.Spliced written inner written' ∧
        IsAt text (Edit.moved rewrites span.start) written' ∧
        ∀ e, e ∈ inner.map (Edit.shift span.start) ↔
          e ∈ rewrites ∧ span.start ≤ e.start ∧ e.stop ≤ span.stop
  /-- In a value, what stands outside of the exchanged extensions stays: queries, entries without a
  converted reference, and all that is no reference. -/
  values : ∀ span value verbatim value', .string span value verbatim ∈ literals →
    Edit.Spliced value (valueEdits lookup site value).reverse value' →
      KeepsRest value (valueEdits lookup site value).reverse value' ∧
      ∀ r ∈ Reference.ofValue value,
        IsAt value' (Edit.moved (valueEdits lookup site value).reverse (r.offset + r.clean.bytes))
          r.query ∧
        (r.swap? lookup site = none →
          IsAt value' (Edit.moved (valueEdits lookup site value).reverse r.offset) r.raw)

lemma keepsRest_of_spliced {t t' : Text} {edits : List Edit} (h : Edit.Spliced t edits t') :
    KeepsRest t edits t' :=
  fun _ _ hat hout => h.isAt_moved hat hout

/-- The exchanges in a value stay out of the queries. -/
lemma query_apart {r : Reference} (hr : r ∈ Reference.ofValue value)
    (he : e ∈ valueEdits lookup site value) :
    e.stop ≤ r.offset + r.clean.bytes ∨ r.offset + r.clean.bytes + r.query.bytes ≤ e.start := by
  obtain ⟨r', hr', hswap⟩ := mem_valueEdits.mp he
  have hraw : r.raw.bytes = r.clean.bytes + r.query.bytes := by
    rw [Reference.raw_eq_of_mem_ofValue hr, Text.bytes_append]
  rcases Reference.eq_or_apart_of_mem_ofValue hr hr' with rfl | happart
  · -- the extension of a reference ends where its path ends
    obtain ⟨stem, x, hclean, -, hrange⟩ := Reference.exists_extension hr
    obtain ⟨-, -, -, -, hrange', -⟩ := Reference.swap?_eq_some_iff.mp hswap
    rw [hrange, Option.some.injEq, Prod.mk.injEq] at hrange'
    have hlen : r.clean.bytes = stem.bytes + x.bytes := by rw [hclean, Text.bytes_append]
    omega
  · have hin := (Reference.fits_of_swap? hr' hswap).2
    omega

lemma isAt_query {r : Reference} (hr : r ∈ Reference.ofValue value) :
    IsAt value (r.offset + r.clean.bytes) r.query := by
  have hinner : IsAt r.raw r.clean.bytes r.query :=
    ⟨r.clean, [], by rw [Reference.raw_eq_of_mem_ofValue hr, List.append_nil], rfl⟩
  exact (Reference.isAt_of_mem_ofValue hr).trans hinner

/-- A string without converted references stays. -/
lemma isAt_of_unmatched (hs : AreQuoted source literals)
    (hspliced : Edit.Spliced source rewrites text)
    (hmem : ∀ e, e ∈ rewrites ↔ ∃ l ∈ literals, l.Rewrites lookup site source e)
    (hl : .string span value verbatim ∈ literals) (hnil : valueEdits lookup site value = [])
    {written : Text} (hwritten : Text.slice? span.start span.stop source = some written) :
    IsAt text (Edit.moved rewrites span.start) written := by
  obtain ⟨a, b, hsource, ha, hstop⟩ := Text.slice?_eq_some_iff.mp hwritten
  refine hspliced.isAt_moved ⟨a, b, hsource, ha⟩ fun e he => ?_
  obtain ⟨l, hl', h⟩ := (hmem e).mp he
  cases h with
  | string hswaps hquoted hvalue =>
      rcases hs.apart _ _ _ _ _ _ hl hl' with heq | happart
      · rw [Literal.string.injEq] at heq
        obtain ⟨-, rfl, -⟩ := heq
        exact absurd hnil hswaps
      · simp only
        omega

/-- **The edits of a plan change strings only,** and of them what they must. They can be applied to
the source whatever it is, and give the source with each string rewritten by itself that refers to
converted images. -/
theorem rewrites_strings_only (hs : AreQuoted source literals) (lookup : Lookup) (site : Site) :
    ∃ rewrites text,
      Edit.applyAll? source (ofLiterals lookup site source literals).edits = some text ∧
      RewritesStrings lookup site source literals rewrites text := by
  obtain ⟨rewrites, text, hspliced, hmem⟩ := exists_rewrites hs lookup site
  have hlt : ∀ e ∈ rewrites, e.start < e.stop := by
    intro e he
    obtain ⟨l, hl, h⟩ := (hmem e).mp he
    exact (hs.fits hl h).lt
  refine ⟨rewrites, text, applyAll?_of_spliced hs hspliced hmem, ?_⟩
  refine
    { spliced := hspliced
      mem_iff := hmem
      complete := fun span value verbatim hl hswaps => hs.exists_rewrites hl hswaps
      rest := keepsRest_of_spliced hspliced
      unmatched := ?unmatched
      templates := ?templates
      values := ?values }
  case unmatched =>
    intro span value verbatim hl hnil written hwritten
    exact isAt_of_unmatched hs hspliced hmem hl hnil hwritten
  case templates =>
    intro span chunks hl written hwritten hends
    obtain ⟨a, b, hsource, ha, hstop⟩ := Text.slice?_eq_some_iff.mp hwritten
    rw [← hstop] at hends ⊢
    exact hspliced.exists_within hlt ⟨a, b, hsource, ha⟩ hends
  case values =>
    intro span value verbatim value' hl hvalue
    refine ⟨keepsRest_of_spliced hvalue, fun r hr => ⟨?_, fun hnone => ?_⟩⟩
    · exact hvalue.isAt_moved (isAt_query hr) fun e he => query_apart hr (List.mem_reverse.mp he)
    · exact hvalue.isAt_moved (Reference.isAt_of_mem_ofValue hr) fun e he =>
        apart_of_swap?_eq_none hr hnone (List.mem_reverse.mp he)

/-! ### A template with strings in it -/

/-- A source in which a template holds two strings, one of them with an escape. -/
def templateSource : Text :=
  "f(\x60$\x7b'/a.png 1x, /b.png?v=2 2x'\x7d $\x7b\"\\/a.png\"\x7d\x60);\n".toList

/-- The literals of the source. -/
def templateLiterals : List Literal :=
  [.template ⟨2, 46⟩ [[], [' '], []], .string ⟨5, 31⟩ "/a.png 1x, /b.png?v=2 2x".toList true,
    .string ⟨35, 44⟩ "/a.png".toList false]

/-- One string is changed in place and the other is written again, both inside of the template. -/
theorem rewrites_strings_only_in_template :
    let lookup : Lookup := [(⟨"/repo/public/a.png".toList⟩, ⟨"/repo/public/a.webp".toList⟩)]
    let site : Site := ⟨⟨"/repo".toList⟩, ⟨"/repo/src/home.ts".toList⟩⟩
    AreQuoted templateSource templateLiterals ∧
      ∃ rewrites text,
        Edit.applyAll? templateSource
          (ofLiterals lookup site templateSource templateLiterals).edits = some text ∧
        RewritesStrings lookup site templateSource templateLiterals rewrites text ∧
        ⟨5, 31, "'/a.webp 1x, /b.png?v=2 2x'".toList⟩ ∈ rewrites ∧
        ⟨35, 44, "\"/a.webp\"".toList⟩ ∈ rewrites := by
  intro lookup site
  have hplain : IsQuoted templateSource ⟨5, 31⟩ '\'' "/a.png 1x, /b.png?v=2 2x".toList :=
    ⟨by decide, by decide +kernel⟩
  have hescaped : IsQuoted templateSource ⟨35, 44⟩ '"' "\\/a.png".toList :=
    ⟨by decide, by decide +kernel⟩
  have hquoted : AreQuoted templateSource templateLiterals := by
    constructor
    · intro span value verbatim hl
      simp only [templateLiterals, List.mem_cons, List.not_mem_nil, or_false, reduceCtorEq,
        false_or, Literal.string.injEq] at hl
      rcases hl with ⟨rfl, rfl, rfl⟩ | ⟨rfl, rfl, rfl⟩
      · exact ⟨_, _, hplain, by simp⟩
      · exact ⟨_, _, hescaped, by decide⟩
    · intro span value verbatim span' value' verbatim' hl hl'
      simp only [templateLiterals, List.mem_cons, List.not_mem_nil, or_false, reduceCtorEq,
        false_or, Literal.string.injEq] at hl hl'
      rcases hl with ⟨rfl, rfl, rfl⟩ | ⟨rfl, rfl, rfl⟩ <;>
        rcases hl' with ⟨rfl, rfl, rfl⟩ | ⟨rfl, rfl, rfl⟩ <;> simp
  -- in both values, the extension of the first image is exchanged
  have hexchange : ∀ back : Text, Edit.Spliced ("/a.png".toList ++ back) [⟨2, 6, ".webp".toList⟩]
      ("/a.webp".toList ++ back) := fun back =>
    @Edit.Spliced.cons ⟨2, 6, ".webp".toList⟩ [] "/a".toList ".png".toList back "/a".toList rfl rfl
      (.nil _)
  obtain ⟨rewrites, text, happly, hall⟩ := rewrites_strings_only hquoted lookup site
  refine ⟨hquoted, rewrites, text, happly, hall, ?_, ?_⟩
  · have hedits : valueEdits lookup site "/a.png 1x, /b.png?v=2 2x".toList
        = [⟨2, 6, ".webp".toList⟩] := by decide +kernel
    have hvalue : Edit.Spliced "/a.png 1x, /b.png?v=2 2x".toList
        (valueEdits lookup site "/a.png 1x, /b.png?v=2 2x".toList).reverse
        "/a.webp 1x, /b.png?v=2 2x".toList := by
      rw [hedits]
      exact hexchange " 1x, /b.png?v=2 2x".toList
    have hrewrites : Rewrites lookup site templateSource
        (.string ⟨5, 31⟩ "/a.png 1x, /b.png?v=2 2x".toList true) _ :=
      .string (by rw [hedits]; simp) hplain hvalue
    exact (hall.mem_iff _).mpr ⟨_, by simp [templateLiterals], hrewrites⟩
  · have hedits : valueEdits lookup site "/a.png".toList = [⟨2, 6, ".webp".toList⟩] := by
      decide +kernel
    have hvalue : Edit.Spliced "/a.png".toList (valueEdits lookup site "/a.png".toList).reverse
        "/a.webp".toList := by
      rw [hedits]
      exact hexchange []
    have hrewrites : Rewrites lookup site templateSource
        (.string ⟨35, 44⟩ "/a.png".toList false) _ :=
      .string (by rw [hedits]; simp) hescaped hvalue
    exact (hall.mem_iff _).mpr ⟨_, by simp [templateLiterals], hrewrites⟩

end Plan

end ImageMigration
