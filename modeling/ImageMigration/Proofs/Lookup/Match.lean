/-
Which converted image a reference is taken for.

A reference is matched by an image of the lookup in one of two ways: the image is a candidate of the
reference, or no image is, and its path ends with a suffix of the reference.

* `Lookup.NamedBy`: the images that a reference may be taken for;
* `Lookup.exists_mem_of_match?`, `Lookup.match?_eq_none_iff`: a match is an entry of the lookup, and
  there is none only if no entry is named by the reference;
* `Lookup.mem_ofOutcomes`, `Lookup.exists_mem_ofOutcomes`: the entries are the converted images.
-/
import Mathlib.Tactic.Common
import Mathlib.Data.List.Basic
import ImageMigration.Outcome

namespace ImageMigration.Lookup

variable {lookup : Lookup} {r : Reference} {site : Site} {image converted : Path}

/-- The image is a candidate of the reference, or its path ends with a suffix of the reference. -/
def NamedBy (r : Reference) (site : Site) (image : Path) : Prop :=
  image ∈ r.candidates site ∨ ∃ s ∈ suffixes r, s.text ≠ [] ∧ image.endsWith s = true

instance (r : Reference) (site : Site) (image : Path) : Decidable (NamedBy r site image) :=
  inferInstanceAs (Decidable (image ∈ r.candidates site ∨
    ∃ s ∈ suffixes r, s.text ≠ [] ∧ image.endsWith s = true))

lemma mem_of_find? (h : lookup.find? image = some converted) : (image, converted) ∈ lookup := by
  rw [find?, Option.map_eq_some_iff] at h
  obtain ⟨⟨i, c⟩, hfind, rfl⟩ := h
  have hkey : i = image := by simpa using List.find?_some hfind
  rw [← hkey]
  exact List.mem_of_find?_eq_some hfind

lemma isSome_find? (h : (image, converted) ∈ lookup) : (lookup.find? image).isSome = true := by
  rw [find?, Option.isSome_map, List.find?_isSome]
  exact ⟨(image, converted), h, by simp⟩

lemma findBySuffix?_eq_some {s : List Path} (h : lookup.findBySuffix? s = some converted) :
    ∃ image, (image, converted) ∈ lookup ∧
      ∃ suffix ∈ s, suffix.text ≠ [] ∧ image.endsWith suffix = true := by
  rw [findBySuffix?] at h
  obtain ⟨suffix, hmem, hfind⟩ := List.exists_of_findSome?_eq_some h
  rw [Option.map_eq_some_iff] at hfind
  obtain ⟨⟨i, c⟩, hfind, rfl⟩ := hfind
  rw [List.mem_filter] at hmem
  exact ⟨i, List.mem_of_find?_eq_some hfind, suffix, hmem.1, by simpa using hmem.2,
    by simpa using List.find?_some hfind⟩

lemma findBySuffix?_eq_none {s : List Path} :
    lookup.findBySuffix? s = none ↔
      ∀ entry ∈ lookup, ∀ suffix ∈ s, suffix.text ≠ [] → entry.1.endsWith suffix = false := by
  rw [findBySuffix?, List.findSome?_eq_none_iff]
  simp only [List.mem_filter, Option.map_eq_none_iff, List.find?_eq_none, Bool.not_eq_true,
    Bool.not_eq_true', List.isEmpty_eq_false_iff, and_imp]
  exact ⟨fun h e he s hs hne => h s hs hne e he, fun h s hs hne e he => h e he s hs hne⟩

/-- **A match is an entry** whose image the reference names. -/
lemma exists_mem_of_match? (h : lookup.match? r site = some converted) :
    ∃ image, (image, converted) ∈ lookup ∧ NamedBy r site image := by
  rw [match?] at h
  split at h
  · next c hc =>
    obtain ⟨image, himage, hfind⟩ := List.exists_of_findSome?_eq_some hc
    rw [Option.some.injEq] at h
    subst h
    exact ⟨image, mem_of_find? hfind, Or.inl himage⟩
  · obtain ⟨image, hmem, hsuffix⟩ := findBySuffix?_eq_some h
    exact ⟨image, hmem, Or.inr hsuffix⟩

/-- **There is no match** if no image of the lookup is named by the reference. -/
lemma match?_eq_none_iff :
    lookup.match? r site = none ↔ ∀ entry ∈ lookup, ¬ NamedBy r site entry.1 := by
  constructor
  · rintro h ⟨i, c⟩ hmem hnamed
    rw [match?] at h
    split at h
    · exact absurd h (by simp)
    · next hnone =>
      rcases hnamed with hcand | ⟨s, hs, hne, hend⟩
      · have hfind := List.findSome?_eq_none_iff.mp hnone i hcand
        have hsome := isSome_find? hmem
        rw [hfind] at hsome
        exact absurd hsome (by simp)
      · have hfalse := findBySuffix?_eq_none.mp h (i, c) hmem s hs hne
        rw [hend] at hfalse
        exact absurd hfalse (by simp)
  · intro h
    cases hm : lookup.match? r site with
    | none => rfl
    | some converted =>
        obtain ⟨image, hmem, hnamed⟩ := exists_mem_of_match? hm
        exact absurd hnamed (h _ hmem)

/-- A reference with a candidate in the lookup has a match. -/
lemma isSome_match?_of_mem_candidates (h : (image, converted) ∈ lookup)
    (hc : image ∈ r.candidates site) : (lookup.match? r site).isSome = true := by
  by_contra hno
  have hnone : lookup.match? r site = none := by simpa using hno
  exact match?_eq_none_iff.mp hnone _ h (Or.inl hc)

/-! ### Lookups of outcomes -/

lemma mem_insert {entry : Path × Path} (h : entry ∈ insert image converted lookup) :
    entry = (image, converted) ∨ entry ∈ lookup := by
  induction lookup with
  | nil => simpa [insert] using h
  | cons e rest ih =>
      obtain ⟨i, c⟩ := e
      rw [insert] at h
      split at h
      · next hi =>
        rcases List.mem_cons.mp h with rfl | hrest
        · exact Or.inl (by rw [hi])
        · exact Or.inr (List.mem_cons_of_mem _ hrest)
      · rcases List.mem_cons.mp h with rfl | hrest
        · exact Or.inr (by simp)
        · exact (ih hrest).imp id (List.mem_cons_of_mem _)

lemma exists_mem_insert_self (image converted : Path) (lookup : Lookup) :
    ∃ c, (image, c) ∈ insert image converted lookup := by
  induction lookup with
  | nil => exact ⟨converted, by simp [insert]⟩
  | cons e rest ih =>
      obtain ⟨i, c⟩ := e
      rw [insert]
      split
      · next hi => exact ⟨converted, by simp [hi]⟩
      · obtain ⟨c', hc'⟩ := ih
        exact ⟨c', List.mem_cons_of_mem _ hc'⟩

lemma exists_mem_insert {i c : Path} (h : (i, c) ∈ lookup) (image converted : Path) :
    ∃ c', (i, c') ∈ insert image converted lookup := by
  induction lookup with
  | nil => exact absurd h (by simp)
  | cons e rest ih =>
      obtain ⟨j, b⟩ := e
      rw [insert]
      rcases List.mem_cons.mp h with heq | hrest
      · rw [Prod.mk.injEq] at heq
        obtain ⟨rfl, rfl⟩ := heq
        split
        · exact ⟨converted, by simp⟩
        · exact ⟨c, by simp⟩
      · obtain ⟨c', hc'⟩ := ih hrest
        split
        · exact ⟨c, List.mem_cons_of_mem _ hrest⟩
        · exact ⟨c', List.mem_cons_of_mem _ hc'⟩

section OfOutcomes

variable {outcomes : List Outcome} {o : Outcome}

/-- The entries of a lookup are converted images. -/
lemma mem_ofOutcomes (h : (image, converted) ∈ ofOutcomes outcomes) :
    ∃ o ∈ outcomes, o.isConverted = true ∧ o.image.normal = image ∧
      o.converted.normal = converted := by
  have hfold : ∀ (os : List Outcome) (acc : Lookup),
      (image, converted) ∈ os.foldl (fun l o => insert o.image.normal o.converted.normal l) acc →
        (image, converted) ∈ acc ∨
          ∃ o ∈ os, o.image.normal = image ∧ o.converted.normal = converted := by
    intro os
    induction os with
    | nil => exact fun acc h => Or.inl h
    | cons o os ih =>
        intro acc h
        rcases ih _ h with hacc | ⟨o', ho', hsame⟩
        · rcases mem_insert hacc with heq | hold
          · rw [Prod.mk.injEq] at heq
            exact Or.inr ⟨o, by simp, heq.1.symm, heq.2.symm⟩
          · exact Or.inl hold
        · exact Or.inr ⟨o', List.mem_cons_of_mem _ ho', hsame⟩
  rcases hfold _ [] h with hnil | ⟨o, ho, hsame⟩
  · exact absurd hnil (by simp)
  · rw [List.mem_filter] at ho
    exact ⟨o, ho.1, ho.2, hsame⟩

/-- Every converted image has an entry. -/
lemma exists_mem_ofOutcomes (ho : o ∈ outcomes) (hc : o.isConverted = true) :
    ∃ converted, (o.image.normal, converted) ∈ ofOutcomes outcomes := by
  have hkeep : ∀ (os : List Outcome) (acc : Lookup) (i c : Path), (i, c) ∈ acc →
      ∃ c', (i, c') ∈ os.foldl (fun l o => insert o.image.normal o.converted.normal l) acc := by
    intro os
    induction os with
    | nil => exact fun acc i c h => ⟨c, h⟩
    | cons o os ih =>
        intro acc i c h
        obtain ⟨c', hc'⟩ := exists_mem_insert h o.image.normal o.converted.normal
        exact ih _ i c' hc'
  have hmem : o ∈ outcomes.filter Outcome.isConverted := List.mem_filter.mpr ⟨ho, hc⟩
  obtain ⟨front, back, hsplit⟩ := List.append_of_mem hmem
  rw [ofOutcomes, hsplit, List.foldl_append, List.foldl_cons]
  obtain ⟨c, hc⟩ := exists_mem_insert_self o.image.normal o.converted.normal
    (front.foldl (fun l o => insert o.image.normal o.converted.normal l) [])
  exact hkeep _ _ _ c hc

end OfOutcomes

end ImageMigration.Lookup
