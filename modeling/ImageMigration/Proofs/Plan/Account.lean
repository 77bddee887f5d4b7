/-
What becomes of the references to converted images.

A plan carries the exchanges of a string all together or not at all: as edits of their own, in the
value that the string is written again with, or as a number of references that stay as they are. An
exchange needs the extension of the new image. Where a new image has none, there is no exchange, and
its references are neither edited nor counted.

* `Literal.matched`, `Literal.lost`: the references that a new image was found for, and those among
  them whose new image has no extension;
* `Plan.Accounts`: what a plan does for one literal, and what it carries;
* `Plan.accounts_for_matched`: **all that is not lost is carried or counted**;
* `Plan.matched_lost`: a reference is lost.
-/
import ImageMigration.Proofs.Lookup.Match
import ImageMigration.Proofs.Plan.Rewrites
import ImageMigration.Script

namespace ImageMigration

/-! ### References to converted images -/

namespace Literal

/-- The references of a string that a new image was found for. -/
def matched (lookup : Lookup) (site : Site) : Literal → List Reference
  | .string _ value _ => (Reference.ofValue value).filter fun r => (lookup.match? r site).isSome
  | .template _ _ => []

/-- The references among them whose new image has no extension. -/
def lost (lookup : Lookup) (site : Site) (l : Literal) : List Reference :=
  (l.matched lookup site).filter fun r => ((lookup.match? r site).bind Path.extension?).isNone

variable {lookup : Lookup} {site : Site} {value : Text} {r : Reference}

/-- A reference is exchanged when a new image was found for it, and has an extension. -/
lemma isSome_swap?_iff (hr : r ∈ Reference.ofValue value) :
    (r.swap? lookup site).isSome = true ↔
      ((lookup.match? r site).bind Path.extension?).isSome = true := by
  obtain ⟨stem, x, -, -, hrange⟩ := Reference.exists_extension hr
  simp only [Option.isSome_iff_exists, Option.bind_eq_some_iff, Reference.swap?_eq_some_iff, hrange,
    Option.some.injEq, Prod.mk.injEq]
  constructor
  · rintro ⟨swap, converted, extension, hmatch, hext, -, -⟩
    exact ⟨extension, converted, hmatch, hext⟩
  · rintro ⟨extension, converted, hmatch, hext⟩
    exact ⟨⟨_, _, '.' :: extension⟩, converted, extension, hmatch, hext, ⟨rfl, rfl⟩, rfl⟩

/-- The exchanges of a value and the references that are lost are as many as new images were found
for. -/
lemma length_valueEdits_add_lost (span : Span) (value : Text) (verbatim : Bool) :
    (valueEdits lookup site value).length
        + ((Literal.string span value verbatim).lost lookup site).length
      = ((Literal.string span value verbatim).matched lookup site).length := by
  have hexchanged : (Literal.matched lookup site (.string span value verbatim)).filter
        (fun r => !((lookup.match? r site).bind Path.extension?).isNone)
      = (Reference.ofValue value).filter fun r => (r.swap? lookup site).isSome := by
    rw [matched, List.filter_filter]
    refine List.filter_congr fun r hr => ?_
    rw [Bool.eq_iff_iff, isSome_swap?_iff hr]
    cases lookup.match? r site <;> simp
  have hlength : (valueEdits lookup site value).length
      = ((Reference.ofValue value).filter fun r => (r.swap? lookup site).isSome).length := by
    rw [valueEdits, List.length_filterMap_eq_countP, List.countP_eq_length_filter]
  rw [hlength, ← hexchanged, lost, Nat.add_comm]
  exact (List.length_eq_length_filter_add _).symm

/-- Nothing is lost where all new images have extensions. -/
lemma lost_eq_nil (h : ∀ entry ∈ lookup, (entry.2.extension?).isSome = true) (l : Literal) :
    l.lost lookup site = [] := by
  rw [lost, List.filter_eq_nil_iff]
  intro r hr
  have hmatched : (lookup.match? r site).isSome = true := by
    cases l with
    | string span value verbatim => exact (List.mem_filter.mp hr).2
    | template span chunks => exact absurd hr (by simp [matched])
  obtain ⟨converted, hmatch⟩ := Option.isSome_iff_exists.mp hmatched
  obtain ⟨image, hmem, -⟩ := Lookup.exists_mem_of_match? hmatch
  obtain ⟨extension, hext⟩ := Option.isSome_iff_exists.mp (h _ hmem)
  simp only at hext
  rw [hmatch, Option.bind_some, hext]
  simp

end Literal

/-! ### What a plan carries -/

namespace Plan

/-- What a plan does for one literal, and the exchanges in its value that this carries: each as an
edit of its own; all of them in the value that it is written again with; or none, and then they are
counted. -/
inductive Accounts (lookup : Lookup) (site : Site) (source : Text) :
    Literal → Plan → List Edit → Prop where
  | template {span : Span} {chunks : List Text} :
      Accounts lookup site source (.template span chunks) empty []
  | unmatched {span : Span} {value : Text} {verbatim : Bool}
      (hswaps : valueEdits lookup site value = []) :
      Accounts lookup site source (.string span value verbatim) empty []
  | inPlace {span : Span} {value : Text} (hswaps : valueEdits lookup site value ≠ []) :
      Accounts lookup site source (.string span value true)
        ⟨(valueEdits lookup site value).map (Edit.shift (span.start + 1)), 0⟩
        (valueEdits lookup site value)
  | rewritten {span : Span} {value value' : Text} (hswaps : valueEdits lookup site value ≠ [])
      (hescaped : '\\' ∈ interior source span)
      (hvalue : Edit.Spliced value (valueEdits lookup site value).reverse value') :
      Accounts lookup site source (.string span value false)
        ⟨[⟨span.start, span.stop, Script.quote (openingQuote source span) value'⟩], 0⟩
        (valueEdits lookup site value)
  | counted {span : Span} {value : Text} (hswaps : valueEdits lookup site value ≠ [])
      (hplain : '\\' ∉ interior source span) :
      Accounts lookup site source (.string span value false)
        ⟨[], (valueEdits lookup site value).length⟩ []

variable {lookup : Lookup} {site : Site} {source : Text} {l : Literal} {plan : Plan}
  {carried : List Edit}

/-- A plan accounts for each literal. -/
lemma exists_accounts (lookup : Lookup) (site : Site) (source : Text) (l : Literal) :
    ∃ carried, Accounts lookup site source l (ofLiteral lookup site source l) carried := by
  cases l with
  | template span chunks => exact ⟨[], .template⟩
  | string span value verbatim =>
      rw [ofLiteral]
      by_cases hswaps : valueEdits lookup site value = []
      · rw [hswaps]
        exact ⟨[], .unmatched hswaps⟩
      rcases ofSwaps_cases source span value verbatim hswaps with
        ⟨rfl, hplan⟩ | ⟨rfl, hescaped, hplan⟩ | ⟨rfl, hplain, hplan⟩
      · rw [hplan]
        exact ⟨_, .inPlace hswaps⟩
      · obtain ⟨value', hvalue⟩ := Literal.exists_new_value lookup site value
        rw [hplan, requoted?, Literal.applyAll?_valueEdits hvalue]
        exact ⟨_, .rewritten hswaps hescaped hvalue⟩
      · rw [hplan]
        exact ⟨_, .counted hswaps hplain⟩

/-- What is carried, counted and lost of one literal is all that new images were found for. -/
lemma Accounts.balance (h : Accounts lookup site source l plan carried) :
    carried.length + plan.unedited + (l.lost lookup site).length
      = (l.matched lookup site).length := by
  cases h with
  | template => rfl
  | unmatched hswaps | inPlace hswaps | rewritten hswaps hescaped hvalue | counted hswaps hplain =>
      rw [← Literal.length_valueEdits_add_lost]
      simp [hswaps, empty]

/-- **All references to converted images are accounted for,** but for those that are lost: what the
edits for the literals carry, what is counted, and what is lost are all of them. Nothing is lost
where the new images have extensions. -/
theorem accounts_for_matched (lookup : Lookup) (site : Site) (source : Text)
    (literals : List Literal) :
    ∃ carried : Literal → List Edit,
      (∀ l ∈ literals,
        Accounts lookup site source l (ofLiteral lookup site source l) (carried l) ∧
          (carried l).length + (ofLiteral lookup site source l).unedited
            + (l.lost lookup site).length = (l.matched lookup site).length) ∧
      (ofLiterals lookup site source literals).edits
        = literals.flatMap (fun l => (ofLiteral lookup site source l).edits) ∧
      (literals.flatMap carried).length + (ofLiterals lookup site source literals).unedited
          + (literals.flatMap (Literal.lost lookup site)).length
        = (literals.flatMap (Literal.matched lookup site)).length ∧
      ((∀ entry ∈ lookup, (entry.2.extension?).isSome = true) →
        literals.flatMap (Literal.lost lookup site) = []) := by
  choose carried haccounts using exists_accounts lookup site source
  refine ⟨carried, fun l _ => ⟨haccounts l, (haccounts l).balance⟩, ?_, ?_, fun hext => ?_⟩
  · induction literals with
    | nil => rfl
    | cons l literals ih =>
        rw [List.flatMap_cons, ← ih]
        rfl
  · induction literals with
    | nil => rfl
    | cons l literals ih =>
        have hfirst := (haccounts l).balance
        have hsplit : (ofLiterals lookup site source (l :: literals)).unedited
            = (ofLiteral lookup site source l).unedited
              + (ofLiterals lookup site source literals).unedited := rfl
        simp only [List.flatMap_cons, List.length_append]
        omega
  · exact List.flatMap_eq_nil_iff.mpr fun l _ => Literal.lost_eq_nil hext l

/-- **A reference is lost** whose new image has no extension. -/
theorem matched_lost :
    let source : Text := "const logo = '/logo.png';\n".toList
    let lookup : Lookup := Lookup.ofOutcomes
      [⟨⟨"/repo/public/logo.png".toList⟩, ⟨"/repo/public/logo".toList⟩, 2, 1, false, none⟩]
    let site : Site := ⟨⟨"/repo".toList⟩, ⟨"/repo/src/home.ts".toList⟩⟩
    ∃ literals, Script.literals? site.file source = some literals ∧
      (literals.flatMap (Literal.matched lookup site)).map Reference.raw = ["/logo.png".toList] ∧
      ofLiterals lookup site source literals = ⟨[], 0⟩ := by
  intro source lookup site
  exact ⟨[.string ⟨13, 24⟩ "/logo.png".toList true], by decide +kernel, by decide +kernel,
    by decide +kernel⟩

end Plan

end ImageMigration
