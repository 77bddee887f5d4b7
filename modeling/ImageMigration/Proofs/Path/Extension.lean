/-
The file name of a place and its extension.

* `splitName_eq_some_iff`: a name has an extension if it is a stem, a point and the extension;
* `withExtension_pathOf`: another extension for the path of a place changes its last name. The name
  `..` is left over when nothing but a point stands in front of the extension, and then nothing is
  added behind it;
* `IsNewExtension`: extensions whose files are neither images nor sources, and can be told by it.
-/
import Mathlib.Data.List.TakeWhile
import ImageMigration.Inventory.Name
import ImageMigration.Proofs.Path.Rooted

namespace ImageMigration

open Disk (pathOf)

/-! ### Stem and extension -/

lemma Text.splitLast?_eq_some_iff {sep : Char} {t a b : Text} :
    Text.splitLast? sep t = some (a, b) ↔ t = a ++ sep :: b ∧ sep ∉ b := by
  constructor
  · intro h
    have hsplit := List.takeWhile_append_dropWhile (p := (· ≠ sep)) (l := t.reverse)
    have hfree : sep ∉ t.reverse.takeWhile (· ≠ sep) := fun hmem => by
      simpa using List.mem_takeWhile_imp hmem
    simp only [Text.splitLast?] at h
    split at h
    · exact absurd h (by simp)
    · next c before hdrop =>
      have hc : c = sep := by
        have := List.head?_dropWhile_not (· ≠ sep) t.reverse
        rw [hdrop] at this
        simpa using this
      simp only [Option.some.injEq, Prod.mk.injEq] at h
      obtain ⟨rfl, rfl⟩ := h
      rw [hdrop, hc] at hsplit
      refine ⟨?_, by simpa using hfree⟩
      have hrev := congrArg List.reverse hsplit
      rw [List.reverse_reverse, List.reverse_append, List.reverse_cons] at hrev
      simpa using hrev.symm
  · rintro ⟨rfl, hb⟩
    have hrev : (a ++ sep :: b).reverse = b.reverse ++ sep :: a.reverse := by simp
    have htake : (a ++ sep :: b).reverse.takeWhile (· ≠ sep) = b.reverse := by
      rw [hrev, List.takeWhile_append_of_pos]
      · simp
      · intro x hx
        simpa using fun hxs : x = sep => hb (hxs ▸ List.mem_reverse.mp hx)
    have hdrop : (a ++ sep :: b).reverse.dropWhile (· ≠ sep) = sep :: a.reverse := by
      rw [hrev, List.dropWhile_append_of_pos]
      · simp
      · intro x hx
        simpa using fun hxs : x = sep => hb (hxs ▸ List.mem_reverse.mp hx)
    simp only [Text.splitLast?, hdrop, htake, List.reverse_reverse]

namespace Path

/-- A name has an extension if a point stands in it behind a stem; the last such point counts. -/
lemma splitName_eq_some_iff {name stem e : Text} :
    splitName name = (stem, some e) ↔ name = stem ++ '.' :: e ∧ '.' ∉ e ∧ stem ≠ [] := by
  have hcut : Text.splitLast? '.' name = some (stem, e) ↔ name = stem ++ '.' :: e ∧ '.' ∉ e :=
    Text.splitLast?_eq_some_iff
  rw [splitName]
  constructor
  · intro h
    split at h
    · exact absurd h (by simp)
    · exact absurd h (by simp)
    · next s x hne hs =>
      simp only [Prod.mk.injEq, Option.some.injEq] at h
      obtain ⟨rfl, rfl⟩ := h
      obtain ⟨hname, hdot⟩ := hcut.mp hs
      exact ⟨hname, hdot, fun hnil => hne hnil⟩
  · rintro ⟨hname, hdot, hne⟩
    rw [hcut.mpr ⟨hname, hdot⟩]
    cases stem with
    | nil => exact absurd rfl hne
    | cons c stem => rfl

lemma extension?_pathOf {l : Location} {name : Text} (h : AreNames (l ++ [name])) :
    (pathOf (l ++ [name])).extension? = (splitName name).2 := by
  rw [extension?, fileName?_pathOf h]
  rfl

end Path

/-! ### Another extension -/

section WithExtension

variable {l : Location} {stem e e' : Text}

/-- The end of the last name is the end of the path. -/
lemma text_pathOf_concat_append (l : Location) (a b : Text) :
    (pathOf (l ++ [a ++ b])).text = (pathOf (l ++ [a])).text ++ b := by
  by_cases hl : l = []
  · subst hl
    rfl
  · rw [text_pathOf_concat hl, text_pathOf_concat hl]
    simp

lemma take_text_pathOf (l : Location) (a b : Text) :
    (pathOf (l ++ [a ++ b])).text.take ((pathOf (l ++ [a ++ b])).text.length - b.length)
      = (pathOf (l ++ [a])).text := by
  rw [text_pathOf_concat_append, List.length_append, Nat.add_sub_cancel]
  exact List.take_left

/-- A stem without slashes, and a point behind it, is a name unless it is the parent's. -/
lemma IsName.stem_point (h : IsName (stem ++ '.' :: e)) (hne : stem ≠ []) (hdot : stem ≠ ['.']) :
    IsName (stem ++ ['.']) where
  not_silent := by
    cases stem with
    | nil => exact absurd rfl hne
    | cons c stem => simp [Path.isSilent]
  ne_dots := by
    intro heq
    have heq' : stem ++ ['.'] = ['.'] ++ ['.'] := heq
    exact hdot (List.append_inj_left' heq' rfl)
  no_slash := by
    have hs := h.no_slash
    simp only [List.mem_append, List.mem_cons, not_or] at hs ⊢
    exact ⟨hs.1, by decide, by simp⟩

lemma setExtension_pathOf (h : AreNames (l ++ [stem ++ ['.']])) (hne : stem ≠ []) (he : e ≠ []) :
    (pathOf (l ++ [stem ++ ['.']])).setExtension e = pathOf (l ++ [stem ++ '.' :: e]) := by
  have hsplit : Path.splitName (stem ++ ['.']) = (stem, some []) :=
    Path.splitName_eq_some_iff.mpr ⟨rfl, by simp, hne⟩
  have hlen : (stem ++ ['.']).length - stem.length = ['.'].length := by simp
  have hempty : e.isEmpty = false := by simpa using he
  have hbody : Path.ofSegments .root (l ++ [stem ++ ['.']]) = pathOf (l ++ [stem ++ ['.']]) := rfl
  rw [Path.setExtension, fileName?_pathOf h]
  simp only [segments_pathOf h (by simp), dropSilentEnd_names h, hbody, hsplit, hlen,
    take_text_pathOf l stem ['.'], hempty, Bool.false_eq_true, if_false]
  rw [← text_pathOf_concat_append]

/-- A path that leads up at its end has no file name. -/
lemma fileName?_pathOf_dots (l : Location) : (pathOf (l ++ [['.', '.']])).fileName? = none := by
  have hseg : (pathOf (l ++ [['.', '.']])).components.getLast? = some .parent := by
    have htext : (pathOf (l ++ [['.', '.']])).text
        = '/' :: Text.join '/' (l ++ [['.', '.']]) := rfl
    rw [Path.components_of_text htext]
    by_cases hl : l = []
    · subst hl
      decide
    · have hcut : Text.split '/' (Text.join '/' (l ++ [['.', '.']]))
          = Text.split '/' (Text.join '/' l) ++ [['.', '.']] := by
        rw [Text.join_append hl (by simp), Text.split_append_sep]
        rfl
      rw [hcut, Path.stepsOf_append, ← List.cons_append, List.getLast?_append]
      rfl
  rw [Path.fileName?, hseg]

/-- **Another extension.** The last name keeps its stem; a stem that is a point alone becomes the
way to the parent, and stays without extension. -/
lemma withExtension_pathOf (h : AreNames (l ++ [stem ++ '.' :: e'])) (hdot : '.' ∉ e')
    (hne : stem ≠ []) (he : e ≠ []) :
    (pathOf (l ++ [stem ++ '.' :: e'])).withExtension e
      = pathOf (l ++ [if stem = ['.'] then ['.', '.'] else stem ++ '.' :: e]) := by
  have hsplit : Path.splitName (stem ++ '.' :: e') = (stem, some e') :=
    Path.splitName_eq_some_iff.mpr ⟨rfl, hdot, hne⟩
  have hassoc : stem ++ '.' :: e' = (stem ++ ['.']) ++ e' := by simp
  have hcut : (pathOf (l ++ [stem ++ '.' :: e'])).withExtension e
      = (pathOf (l ++ [stem ++ ['.']])).setExtension e := by
    rw [Path.withExtension, Path.extension?_pathOf h, hsplit]
    simp only [Option.getD_some]
    rw [hassoc, take_text_pathOf]
  rw [hcut]
  split
  · next hs =>
    rw [hs, Path.setExtension]
    have hnone := fileName?_pathOf_dots l
    simp only [List.cons_append, List.nil_append, hnone]
  · next hs => exact setExtension_pathOf (h.left.concat (h.last.stem_point hne hs)) hne he

/-- A stem with another extension is a name. -/
lemma IsName.set_extension (h : IsName (stem ++ '.' :: e')) (hne : stem ≠ []) (he : e ≠ [])
    (hslash : '/' ∉ e) : IsName (stem ++ '.' :: e) where
  not_silent := by
    cases stem with
    | nil => exact absurd rfl hne
    | cons c stem => simp [Path.isSilent]
  ne_dots := by
    intro heq
    have hlen := congrArg List.length heq
    have h1 := List.length_pos_of_ne_nil hne
    have h2 := List.length_pos_of_ne_nil he
    simp only [List.length_append, List.length_cons, List.length_nil] at hlen
    omega
  no_slash := by
    have hs := h.no_slash
    simp only [List.mem_append, List.mem_cons, not_or] at hs ⊢
    exact ⟨hs.1, by decide, hslash⟩

end WithExtension

/-! ### Kinds of files -/

/-- An extension that tells new images from everything a run starts from. -/
structure IsNewExtension (e : Text) : Prop where
  ne_nil : e ≠ []
  no_dot : '.' ∉ e
  no_slash : '/' ∉ e
  not_image : ImageFormat.ofExtension? e = none
  not_code : isCodeExtension e = false

lemma isNewExtension_webp : IsNewExtension "webp".toList where
  ne_nil := by decide
  no_dot := by decide
  no_slash := by decide
  not_image := by decide
  not_code := by decide

lemma Path.isImage_pathOf {l : Location} {n : Text} (h : AreNames (l ++ [n])) :
    (pathOf (l ++ [n])).isImage = isImageName n := by
  rw [Path.isImage_eq, fileName?_pathOf h]
  rfl

lemma Path.isCode_pathOf {l : Location} {n : Text} (h : AreNames (l ++ [n])) :
    (pathOf (l ++ [n])).isCode = isCodeName n := by
  rw [Path.isCode, fileName?_pathOf h]
  rfl

/-- A name whose extension passes a check is a stem with such an extension. -/
lemma exists_extension_of_any {n : Text} {p : Text → Bool}
    (h : (Path.splitName n).2.any p = true) :
    ∃ stem e, n = stem ++ '.' :: e ∧ '.' ∉ e ∧ stem ≠ [] ∧ p e = true := by
  cases hs : Path.splitName n with
  | mk stem ext =>
      rw [hs] at h
      cases ext with
      | none => exact absurd h (by simp)
      | some e =>
          obtain ⟨hn, hdot, hne⟩ := Path.splitName_eq_some_iff.mp hs
          exact ⟨stem, e, hn, hdot, hne, h⟩

/-- The name of an image is a stem with the extension of an image. -/
lemma exists_extension_of_isImageName {n : Text} (h : isImageName n = true) :
    ∃ stem e, n = stem ++ '.' :: e ∧ '.' ∉ e ∧ stem ≠ [] ∧
      (ImageFormat.ofExtension? e).isSome = true := by
  rw [isImageName, ImageFormat.ofName?, Bool.and_eq_true, Option.isSome_bind] at h
  exact exists_extension_of_any h.1

/-- The name of a source is a stem with the extension of a source. -/
lemma exists_extension_of_isCodeName {n : Text} (h : isCodeName n = true) :
    ∃ stem e, n = stem ++ '.' :: e ∧ '.' ∉ e ∧ stem ≠ [] ∧ isCodeExtension e = true :=
  exists_extension_of_any h

/-- No extension is that of an image and of a source. -/
lemma ofExtension?_of_isCodeExtension {e : Text} (h : isCodeExtension e = true) :
    ImageFormat.ofExtension? e = none := by
  have hmem : e ∈ codeExtensions := by simpa [isCodeExtension] using h
  revert hmem
  have hall : ∀ x ∈ codeExtensions, ImageFormat.ofExtension? x = none := by decide
  exact hall e

/-- Names with one extension split in one way. -/
lemma extension_unique {stem stem' e e' : Text} (h : stem ++ '.' :: e = stem' ++ '.' :: e')
    (hdot : '.' ∉ e) (hdot' : '.' ∉ e') : stem = stem' ∧ e = e' := by
  have h1 : Text.splitLast? '.' (stem ++ '.' :: e) = some (stem', e') :=
    Text.splitLast?_eq_some_iff.mpr ⟨h, hdot'⟩
  have h2 : Text.splitLast? '.' (stem ++ '.' :: e) = some (stem, e) :=
    Text.splitLast?_eq_some_iff.mpr ⟨rfl, hdot⟩
  rw [h1] at h2
  simp only [Option.some.injEq, Prod.mk.injEq] at h2
  exact ⟨h2.1.symm, h2.2.symm⟩

lemma not_isCodeName_of_isImageName {n : Text} (h : isImageName n = true) :
    isCodeName n = false := by
  by_contra hc
  obtain ⟨s, e, rfl, hdot, -, himg⟩ := exists_extension_of_isImageName h
  obtain ⟨s', e', heq, hdot', -, hcode⟩ :=
    exists_extension_of_isCodeName (by simpa using hc)
  obtain ⟨-, rfl⟩ := extension_unique heq hdot hdot'
  rw [ofExtension?_of_isCodeExtension hcode] at himg
  exact absurd himg (by simp)

/-- No path is that of an image and of a source. -/
lemma Path.not_isImage_of_isCode {p : Path} (h : p.isCode = true) : p.isImage = false := by
  rw [isCode, Option.any_eq_true] at h
  obtain ⟨n, hname, hcode⟩ := h
  rw [isImage_eq, hname, Option.any_some]
  by_contra himage
  rw [not_isCodeName_of_isImageName (by simpa using himage)] at hcode
  exact absurd hcode (by simp)

/-- A stem with an extension that fails a check is no name whose extension passes it. -/
lemma any_splitName_eq_false {e : Text} {p : Text → Bool} (hdot : '.' ∉ e) (he : p e = false)
    (stem : Text) : (Path.splitName (stem ++ '.' :: e)).2.any p = false := by
  by_contra hc
  obtain ⟨stem', e', heq, hdot', -, hp⟩ := exists_extension_of_any (by simpa using hc)
  obtain ⟨-, rfl⟩ := extension_unique heq hdot hdot'
  rw [he] at hp
  exact absurd hp (by simp)

/-- A file with a new extension is no image. -/
lemma IsNewExtension.not_isImageName {e : Text} (he : IsNewExtension e) (stem : Text) :
    isImageName (stem ++ '.' :: e) = false := by
  rw [isImageName, ImageFormat.ofName?, Option.isSome_bind,
    any_splitName_eq_false he.no_dot (by rw [he.not_image]; rfl), Bool.false_and]

/-- A file with a new extension is no source. -/
lemma IsNewExtension.not_isCodeName {e : Text} (he : IsNewExtension e) (stem : Text) :
    isCodeName (stem ++ '.' :: e) = false :=
  any_splitName_eq_false he.no_dot he.not_code stem

end ImageMigration
