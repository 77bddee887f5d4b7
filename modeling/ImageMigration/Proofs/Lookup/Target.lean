/-
What a rewritten reference denotes.

A reference is rewritten by exchanging its extension, and an image is converted by exchanging the
extension of its path. Both come to the same: the rewritten reference denotes the new file by the
rule by which the reference was matched. The exception are images whose name is a point and an
extension, such as `..png`. Their new path leads to the parent directory; it has no extension, and
no reference to them is rewritten.

* `Lookup.Converts`: lookups of images that were converted to files with a given extension;
* `Lookup.PointsAt`: a reference names a file in the way in which another one was matched;
* `Lookup.pointsAt_of_match?`: **a rewritten reference points at the converted file**;
* `Lookup.not_pointsAt_parent`: an image whose name is a point and an extension.
-/
import ImageMigration.Plan
import ImageMigration.Proofs.Lookup.Match
import ImageMigration.Proofs.Reference.Extension

namespace ImageMigration.Lookup

open Disk (pathOf)

/-- The lookup of some images that were converted to files with the given extension. -/
structure Converts (e : Text) (lookup : Lookup) : Prop where
  isPlace : ∀ entry ∈ lookup, entry.1.IsPlace
  extension : ∀ entry ∈ lookup, entry.1.extension?.isSome = true
  converted : ∀ entry ∈ lookup, entry.2 = entry.1.withExtension e

/-- The second reference names the converted image by the rule by which the first one was matched:
by the same convention, or by its suffix when the lookup has no candidate of the first. -/
inductive PointsAt (lookup : Lookup) (site : Site) (r r' : Reference) (converted : Path) :
    Prop where
  | candidate {front back : List Convention} {c : Convention}
      (hsplit : r.conventions = front ++ c :: back)
      (hbefore : ∀ d ∈ front, lookup.find? (r.candidate site d) = none)
      (hfind : lookup.find? (r.candidate site c) = some converted)
      (hmem : c ∈ r'.conventions) (hnew : r'.candidate site c = converted)
  | suffix {s : Path} (hnone : ∀ p ∈ r.candidates site, lookup.find? p = none)
      (hs : s ∈ suffixes r') (hne : s.text ≠ []) (hends : converted.endsWith s = true)

variable {lookup : Lookup} {site : Site} {r : Reference} {image converted : Path} {value e : Text}

/-! ### Converted images -/

/-- An image and the file that it was converted to have one directory and one stem. -/
lemma Converts.exists_stem (h : lookup.Converts e) (he : IsExtension e)
    (hmem : (image, converted) ∈ lookup) (hext : converted.extension? ≠ none) :
    ∃ l stem x, stem ≠ [] ∧ '.' ∉ x ∧
      AreNames (l ++ [stem ++ '.' :: x]) ∧ image = pathOf (l ++ [stem ++ '.' :: x]) ∧
      AreNames (l ++ [stem ++ '.' :: e]) ∧ converted = pathOf (l ++ [stem ++ '.' :: e]) := by
  obtain ⟨hnames, himage⟩ := h.isPlace _ hmem
  obtain ⟨x, hx⟩ := Option.isSome_iff_exists.mp (h.extension _ hmem)
  have hconverted := h.converted _ hmem
  simp only at himage hx hconverted
  rcases List.eq_nil_or_concat' (Listing.place image) with hroot | ⟨l, name, hl⟩
  · have hnone : (pathOf []).extension? = none := by decide
    rw [← himage, hroot, hnone] at hx
    exact absurd hx (by simp)
  rw [hl] at hnames himage
  rw [← himage, Path.extension?_pathOf hnames] at hx
  obtain ⟨stem, hsplit⟩ : ∃ stem, Path.splitName name = (stem, some x) := ⟨_, Prod.ext rfl hx⟩
  obtain ⟨rfl, hdot, hne⟩ := Path.splitName_eq_some_iff.mp hsplit
  have hwith := withExtension_pathOf hnames hdot hne he.ne_nil
  rw [himage, ← hconverted] at hwith
  by_cases hpoint : stem = ['.']
  · -- the new path leads to the parent directory
    rw [if_pos hpoint] at hwith
    rw [hwith, Path.extension?, fileName?_pathOf_dots] at hext
    exact absurd rfl hext
  · rw [if_neg hpoint] at hwith
    exact ⟨l, stem, x, hne, hdot, hnames, himage.symm,
      hnames.left.concat (hnames.last.set_extension hne he.ne_nil he.no_slash), hwith⟩

lemma Converts.extension?_eq (h : lookup.Converts e) (he : IsExtension e)
    (hmem : (image, converted) ∈ lookup) (hext : converted.extension? ≠ none) :
    converted.extension? = some e := by
  obtain ⟨l, stem, x, hne, -, -, -, hnames, rfl⟩ := h.exists_stem he hmem hext
  rw [Path.extension?_pathOf hnames, Path.splitName_eq_some_iff.mpr ⟨rfl, he.no_dot, hne⟩]

/-! ### The two ways to match -/

section Match

variable {stem x : Text} {c : Convention} {r' : Reference}

/-- With the new extension, the candidate of a convention is the converted image. -/
lemma candidate_of_converts (h : lookup.Converts e) (he : IsExtension e) (hx : IsExtension x)
    (hproject : site.project.isAbsolute = true) (hfile : site.file.isAbsolute = true)
    (hr : r.clean = stem ++ '.' :: x) (hr' : r'.clean = stem ++ '.' :: e)
    (hmem : (r.candidate site c, converted) ∈ lookup) (hext : converted.extension? ≠ none) :
    r'.candidate site c = converted := by
  obtain ⟨l, v, hl, hv, hcandidate⟩ := Reference.exists_candidate hproject hfile stem c
  obtain ⟨l', stem', x', -, hdot, hnames, himage, -, hconverted⟩ := h.exists_stem he hmem hext
  have hplace : l ++ [v ++ '.' :: x] = l' ++ [stem' ++ '.' :: x'] :=
    pathOf_injective (hl.concat (isName_point hv hx)) hnames
      ((hcandidate r x hr hx).symm.trans himage)
  obtain ⟨rfl, hlast⟩ := List.append_inj' hplace rfl
  obtain ⟨rfl, -⟩ := extension_unique (List.singleton_inj.mp hlast) hx.no_dot hdot
  rw [hcandidate r' e hr' he, hconverted]

/-- With the new extension, a suffix of the image is one of the converted image. -/
lemma endsWith_of_converts (h : lookup.Converts e) (he : IsExtension e) (hx : IsExtension x)
    (w : Text) (hmem : (image, converted) ∈ lookup) (hends : image.endsWith ⟨w ++ '.' :: x⟩ = true)
    (hext : converted.extension? ≠ none) : converted.endsWith ⟨w ++ '.' :: e⟩ = true := by
  obtain ⟨steps, v, hv, hsteps⟩ := Path.exists_components_append w
  obtain ⟨l, stem', x', -, hdot, hnames, rfl, hnames', rfl⟩ := h.exists_stem he hmem hext
  rw [Path.endsWith, List.isSuffixOf_iff_suffix, hsteps _ (isName_point hv hx),
    components_pathOf hnames, List.map_append, List.map_singleton, ← List.cons_append] at hends
  rw [Path.endsWith, List.isSuffixOf_iff_suffix, hsteps _ (isName_point hv he),
    components_pathOf hnames', List.map_append, List.map_singleton, ← List.cons_append]
  obtain ⟨front, hfront⟩ := hends
  rw [← List.append_assoc] at hfront
  obtain ⟨hsame, hlast⟩ := List.append_inj' hfront rfl
  have hname : v ++ '.' :: x = stem' ++ '.' :: x' := by simpa using hlast
  obtain ⟨rfl, -⟩ := extension_unique hname hx.no_dot hdot
  exact ⟨front, by rw [← List.append_assoc, hsame]⟩

end Match

/-- **A rewritten reference points at the converted file.** With its new extension it names the file
by the rule by which the file was found, and the exchange of its extension is what is planned. -/
theorem pointsAt_of_match? (hr : r ∈ Reference.ofValue value)
    (hproject : site.project.isAbsolute = true) (hfile : site.file.isAbsolute = true)
    (he : IsExtension e) (hlookup : lookup.Converts e)
    (h : lookup.match? r site = some converted) (hext : converted.extension? ≠ none) :
    lookup.PointsAt site r (r.withExtension e) converted ∧
      ∃ start stop, r.swap? lookup site = some ⟨r.offset + start, r.offset + stop, '.' :: e⟩ ∧
        Edit.Spliced r.raw [⟨start, stop, '.' :: e⟩] (r.withExtension e).raw := by
  obtain ⟨stem, x, hx, hclean, -, hwith⟩ := Reference.exists_stem hr
  have hclean' : (r.withExtension e).clean = stem ++ '.' :: e := by rw [hwith]
  obtain ⟨-, hconventions⟩ := Reference.conventions_eq hclean hclean'
  have hswap : ∀ {image}, (image, converted) ∈ lookup → ∃ start stop,
      r.swap? lookup site = some ⟨r.offset + start, r.offset + stop, '.' :: e⟩ ∧
        Edit.Spliced r.raw [⟨start, stop, '.' :: e⟩] (r.withExtension e).raw := by
    intro image hmem
    obtain ⟨start, stop, hrange, hspliced⟩ := Reference.spliced_withExtension hr e
    refine ⟨start, stop, ?_, hspliced⟩
    rw [Reference.swap?, h, Option.bind_eq_bind, Option.bind_some, hrange, Option.bind_eq_bind,
      Option.bind_some, hlookup.extension?_eq he hmem hext]
    rfl
  rw [match?] at h
  split at h
  · -- a candidate is in the lookup
    next found hfound =>
    rw [Option.some.injEq] at h
    subst h
    rw [Reference.candidates, List.findSome?_map] at hfound
    obtain ⟨front, c, back, hsplit, hfind, hbefore⟩ := List.findSome?_eq_some_iff.mp hfound
    have hmem := mem_of_find? hfind
    have hcandidate := candidate_of_converts hlookup he hx hproject hfile hclean hclean' hmem hext
    refine ⟨.candidate hsplit hbefore hfind ?_ hcandidate, hswap hmem⟩
    rw [hconventions, hsplit]
    simp
  · -- only a suffix is
    next hnone =>
    obtain ⟨image, hmem, s, hs, -, hends⟩ := findBySuffix?_eq_some h
    obtain ⟨ws, hws⟩ := exists_suffixes stem
    rw [hws r x hclean] at hs
    obtain ⟨w, hw, rfl⟩ := List.mem_map.mp hs
    have hs' : (⟨w ++ '.' :: e⟩ : Path) ∈ suffixes (r.withExtension e) := by
      rw [hws _ e hclean']
      exact List.mem_map.mpr ⟨w, hw, rfl⟩
    exact ⟨.suffix (List.findSome?_eq_none_iff.mp hnone) hs' (by simp)
      (endsWith_of_converts hlookup he hx w hmem hends hext), hswap hmem⟩

/-- A reference behind an alias, with a query, that is matched by the third convention it is tried
with. -/
theorem pointsAt_of_match?_alias :
    let image : Path := ⟨"/repo/src/img/logo.v2.png".toList⟩
    let site : Site := ⟨⟨"/repo".toList⟩, ⟨"/repo/src/pages/home.ts".toList⟩⟩
    let lookup : Lookup := [(image, image.withExtension "webp".toList)]
    let r : Reference := ⟨"@/./img//logo.v2.png?v=1".toList, "@/./img//logo.v2.png".toList,
      "?v=1".toList, 0, .static⟩
    r ∈ Reference.ofValue "@/./img//logo.v2.png?v=1".toList ∧ lookup.Converts "webp".toList ∧
      lookup.match? r site = some (image.withExtension "webp".toList) ∧
      lookup.PointsAt site r (r.withExtension "webp".toList)
        (image.withExtension "webp".toList) := by
  intro image site lookup r
  have hr : r ∈ Reference.ofValue "@/./img//logo.v2.png?v=1".toList := by decide +kernel
  have hmatch : lookup.match? r site = some (image.withExtension "webp".toList) := by decide +kernel
  have hconverts : lookup.Converts "webp".toList := by
    constructor <;> intro entry hentry <;> rw [List.mem_singleton.mp hentry]
    · decide +kernel
    · decide +kernel
  exact ⟨hr, hconverts, hmatch, (pointsAt_of_match? hr rfl rfl
    ⟨by decide, by decide, by decide⟩ hconverts hmatch (by decide +kernel)).1⟩

/-- **An image whose name is a point and an extension** has the way to its parent directory as its
new path, and no reference with another extension is one to that. -/
theorem not_pointsAt_parent :
    let image : Path := ⟨"/repo/public/..png".toList⟩
    let site : Site := ⟨⟨"/repo".toList⟩, ⟨"/repo/src/home.ts".toList⟩⟩
    let converted : Path := image.withExtension "webp".toList
    let lookup : Lookup := [(image, converted)]
    let r : Reference := .ofPath "/..png".toList 0
    r ∈ Reference.ofValue "/..png".toList ∧ site.project.IsPlace ∧
      lookup.Converts "webp".toList ∧ image.extension? = some "png".toList ∧
      lookup.match? r site = some converted ∧ converted.text = "/repo/public/..".toList ∧
      ¬ lookup.PointsAt site r (r.withExtension "webp".toList) converted := by
  intro image site converted lookup r
  have hno : converted ∉ (r.withExtension "webp".toList).candidates site := by decide +kernel
  have hfind : lookup.find? image = some converted := by decide +kernel
  have hcandidate : image ∈ r.candidates site := by decide +kernel
  have hconverts : lookup.Converts "webp".toList := by
    constructor <;> intro entry hentry <;> rw [List.mem_singleton.mp hentry]
    · decide +kernel
    · decide +kernel
  refine ⟨by decide +kernel, by decide +kernel, hconverts, by decide +kernel, by decide +kernel,
    by decide +kernel, fun h => ?_⟩
  cases h with
  | candidate hsplit hbefore hfound hmem hnew =>
      exact hno (List.mem_map.mpr ⟨_, hmem, hnew⟩)
  | suffix hnone hs hne hends =>
      rw [hnone image hcandidate] at hfind
      exact absurd hfind (by simp)

end ImageMigration.Lookup
