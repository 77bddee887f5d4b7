/-
What the strings of an edited source name.

Where a source with the edits of a plan is read again, its strings are the rewritten ones. What they
name is what their references named that no new image was found for; and no edit is left for new
images of the same originals.

* `Literal.Follows`: a literal that is read again behind the edits of a plan;
  `Literal.values_of_follows`: its values are rewritten;
* `mentionedIn_rewritten_iff`: **what rewritten strings mention**;
* `valueEdits_rewritten_eq_nil`, `Plan.ofLiterals_eq_empty`: **nothing is left to be edited.**
-/
import ImageMigration.Proofs.Reference.Rewritten
import ImageMigration.Proofs.Usage.Partition

namespace ImageMigration

open Reference (ofValue rewritten)

/-- The second literal is what edits make of the first: a string whose value has its exchanges made,
or a template with the same chunks. It may stand elsewhere, and be written in another way. -/
inductive Literal.Follows (lookup : Lookup) (site : Site) : Literal → Literal → Prop where
  | string {span span' : Span} {value value' : Text} {verbatim verbatim' : Bool}
      (hvalue : Edit.applyAll? value (valueEdits lookup site value) = some value') :
      Follows lookup site (.string span value verbatim) (.string span' value' verbatim')
  | template {span span' : Span} {chunks : List Text} :
      Follows lookup site (.template span chunks) (.template span' chunks)

variable {lookup lookup' : Lookup} {site : Site} {image : Path} {value : Text}
  {values : List Text} {literals literals' : List Literal} {source : Text}

/-- **The strings that are read again have the rewritten values.** -/
lemma Literal.values_of_follows (h : List.Forall₂ (Literal.Follows lookup site) literals literals') :
    literals'.filterMap Literal.value?
      = (literals.filterMap Literal.value?).map (rewritten lookup site) := by
  induction h with
  | nil => rfl
  | cons hfirst _ ih =>
      cases hfirst with
      | string hvalue =>
          rw [Reference.eq_rewritten_of_applyAll? hvalue]
          simpa [Literal.value?] using ih
      | template => exact ih

/-! ### Images that are named -/

/-- **What rewritten strings mention** is what their references named that are not converted. -/
lemma mentionedIn_rewritten_iff (hlookup : lookup.HasPlainExtensions) :
    MentionedIn (values.map (rewritten lookup site)) site image ↔
      ∃ value ∈ values, ∃ r ∈ ofValue value,
        lookup.match? r site = none ∧ r.Names site image := by
  constructor
  · rintro ⟨value', hvalue', r', hr', hnames⟩
    obtain ⟨value, hvalue, rfl⟩ := List.mem_map.mp hvalue'
    rw [Reference.ofValue_rewritten hlookup, List.mem_map] at hr'
    obtain ⟨r, hr, rfl⟩ := hr'
    rw [List.mem_filter, Option.isNone_iff_eq_none] at hr
    -- the place of a reference in its value does not tell what it names
    exact ⟨value, hvalue, r, hr.1, hr.2, hnames⟩
  · rintro ⟨value, hvalue, r, hr, hnone, hnames⟩
    refine ⟨_, List.mem_map_of_mem hvalue, r.movedBy (valueEdits lookup site value), ?_, hnames⟩
    rw [Reference.ofValue_rewritten hlookup]
    exact List.mem_map_of_mem (List.mem_filter.mpr ⟨hr, Option.isNone_iff_eq_none.mpr hnone⟩)

/-! ### Edits that are left -/

/-- A reference that no image is found for is not exchanged. -/
lemma valueEdits_eq_nil (h : ∀ r ∈ ofValue value, lookup.match? r site = none) :
    valueEdits lookup site value = [] := by
  refine List.filterMap_eq_nil_iff.mpr fun r hr => ?_
  rw [Reference.swap?, h r hr]
  rfl

/-- Nothing can be found in an empty lookup. -/
lemma Lookup.match?_nil (r : Reference) (site : Site) : Lookup.match? [] r site = none :=
  match?_eq_none_iff.mpr fun _ hentry => absurd hentry (by simp)

/-- **Rewritten strings have no exchange** for images of the lookup that they were rewritten for. -/
lemma valueEdits_rewritten_eq_nil (hlookup : lookup.HasPlainExtensions)
    (hsub : ∀ entry ∈ lookup', ∃ converted, (entry.1, converted) ∈ lookup) :
    valueEdits lookup' site (rewritten lookup site value) = [] := by
  refine valueEdits_eq_nil fun r' hr' => ?_
  rw [Reference.ofValue_rewritten hlookup, List.mem_map] at hr'
  obtain ⟨r, hr, rfl⟩ := hr'
  have hnone : lookup.match? r site = none :=
    Option.isNone_iff_eq_none.mp (List.mem_filter.mp hr).2
  refine Lookup.match?_eq_none_iff.mpr fun entry hentry => ?_
  obtain ⟨converted, hmem⟩ := hsub entry hentry
  exact Lookup.match?_eq_none_iff.mp hnone (entry.1, converted) hmem

/-- Where no string has an exchange, nothing is planned. -/
lemma Plan.ofLiterals_eq_empty
    (h : ∀ value ∈ literals.filterMap Literal.value?, valueEdits lookup site value = []) :
    Plan.ofLiterals lookup site source literals = .empty := by
  induction literals with
  | nil => rfl
  | cons literal literals ih =>
      have hrest : Plan.ofLiterals lookup site source literals = .empty := by
        refine ih fun value hvalue => h value ?_
        rw [List.filterMap_cons]
        split
        · exact hvalue
        · exact List.mem_cons_of_mem _ hvalue
      have hsplit : Plan.ofLiterals lookup site source (literal :: literals)
          = (Plan.ofLiteral lookup site source literal).append
            (Plan.ofLiterals lookup site source literals) := rfl
      rw [hsplit, hrest]
      cases literal with
      | template span chunks => rfl
      | string span value verbatim =>
          rw [Plan.ofLiteral, h value (by simp [Literal.value?])]
          rfl

end ImageMigration
