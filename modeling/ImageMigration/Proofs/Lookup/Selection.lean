/-
Which entry of a lookup a reference selects.

The candidates of a reference are tried in their order, and the first one that is a converted image
decides. When none is, the first image in the order of the lookup decides whose path ends as the
reference does: below `public` if there is one, and anywhere else. Paths are compared step by step.

* `Lookup.IsMap`: lookups with one entry for an image, under its normal form;
  `Lookup.isMap_ofOutcomes`: those of converted images are such lookups;
* `Lookup.EndsAs`: the images that end as a reference does;
* `Lookup.Selects`: the entry that a reference selects;
* `Lookup.match?_eq_some_iff`: **a match is the selected entry**;
* `Lookup.fileName?_of_selects`: the name of the selected image stands at the end of the reference;
* `Lookup.match?_isSelection`: **the whole statement**, with what the order of the lookup tells.
-/
import Mathlib.Data.List.Nodup
import Mathlib.Data.List.Perm.Basic
import ImageMigration.Proofs.Lookup.Match
import ImageMigration.Proofs.Path.Resolved
import ImageMigration.Proofs.Reference.Extension

namespace ImageMigration.Lookup

/-- Each image has one entry, under the normal form of its path. -/
structure IsMap (lookup : Lookup) : Prop where
  nodup : (lookup.map Prod.fst).Nodup
  normal : ∀ entry ∈ lookup, entry.1.normal = entry.1

/-- Some image of the lookup takes the steps of the path. -/
def HasKey (lookup : Lookup) (p : Path) : Prop := ∃ entry ∈ lookup, entry.1.same p = true

/-- The suffix of a root-absolute reference, below `public`. -/
def publicEnding (r : Reference) : Path := (⟨"public".toList⟩ : Path).join ⟨r.publicSuffix⟩

/-- The last steps of the image are those of a suffix of the reference. -/
def EndsAs (r : Reference) (image : Path) : Prop :=
  match r.style with
  | .rootAbsolute =>
      image.endsWith (publicEnding r) = true ∨ image.endsWith ⟨r.publicSuffix⟩ = true
  | .relative => image.endsWith ⟨r.aliasSuffix⟩ = true

/-- The entry is the first one whose image ends as told. -/
def IsFirstEnding (lookup : Lookup) (ending : Path) (entry : Path × Path) : Prop :=
  ∃ front back, lookup = front ++ entry :: back ∧ entry.1.endsWith ending = true ∧
    ∀ e ∈ front, e.1.endsWith ending = false

/-- The entry that a reference selects. -/
inductive Selects (lookup : Lookup) (r : Reference) (site : Site) (entry : Path × Path) : Prop
  /-- the image is a candidate, and no candidate in front of it is an image -/
  | candidate {front back : List Path} {p : Path} (hsplit : r.candidates site = front ++ p :: back)
      (hbefore : ∀ q ∈ front, ¬ HasKey lookup q) (hmem : entry ∈ lookup)
      (hsame : entry.1.same p = true)
  /-- the first image that ends so below `public` -/
  | publicEnding (hstyle : r.style = .rootAbsolute)
      (hnone : ∀ p ∈ r.candidates site, ¬ HasKey lookup p)
      (hfirst : IsFirstEnding lookup (publicEnding r) entry)
  /-- the first image that ends so, as there is none below `public` -/
  | ending (hstyle : r.style = .rootAbsolute)
      (hnone : ∀ p ∈ r.candidates site, ¬ HasKey lookup p)
      (hno : ∀ e ∈ lookup, e.1.endsWith (publicEnding r) = false)
      (hfirst : IsFirstEnding lookup ⟨r.publicSuffix⟩ entry)
  /-- the first image that ends as the reference does behind the mark of an alias -/
  | aliasEnding (hstyle : r.style = .relative)
      (hnone : ∀ p ∈ r.candidates site, ¬ HasKey lookup p)
      (hfirst : IsFirstEnding lookup ⟨r.aliasSuffix⟩ entry)

variable {lookup lookup' : Lookup} {r : Reference} {site : Site} {value : Text}
  {image converted p ending : Path} {entry : Path × Path} {s : List Path}

/-! ### Keys -/

lemma IsMap.find?_eq_some_iff (h : lookup.IsMap) :
    lookup.find? image = some converted ↔ (image, converted) ∈ lookup := by
  refine ⟨mem_of_find?, fun hmem => ?_⟩
  obtain ⟨c, hc⟩ := Option.isSome_iff_exists.mp (isSome_find? hmem)
  have hsame := List.inj_on_of_nodup_map h.nodup (mem_of_find? hc) hmem rfl
  rw [Prod.mk.injEq] at hsame
  rw [hc, hsame.2]

/-- An image that is known keeps its place, and another one comes last. -/
lemma keys_insert (image converted : Path) (lookup : Lookup) :
    (insert image converted lookup).map Prod.fst = lookup.map Prod.fst ∨
      image ∉ lookup.map Prod.fst ∧
        (insert image converted lookup).map Prod.fst = lookup.map Prod.fst ++ [image] := by
  induction lookup with
  | nil => exact Or.inr ⟨by simp, rfl⟩
  | cons e rest ih =>
      obtain ⟨i, c⟩ := e
      rw [insert]
      split
      · exact Or.inl rfl
      · next hi => simpa [Ne.symm hi] using ih

lemma isMap_insert (h : lookup.IsMap) (himage : image.normal = image) (converted : Path) :
    (insert image converted lookup).IsMap := by
  constructor
  · rcases keys_insert image converted lookup with hkeys | ⟨hnew, hkeys⟩
    · rw [hkeys]
      exact h.nodup
    · rw [hkeys]
      exact List.Nodup.append h.nodup (by simp) (by simpa using hnew)
  · intro entry hentry
    rcases mem_insert hentry with rfl | hold
    · exact himage
    · exact h.normal entry hold

/-- The converted images of a run are looked up under their normal forms, one entry for each. -/
lemma isMap_ofOutcomes (outcomes : List Outcome) : (ofOutcomes outcomes).IsMap := by
  rw [ofOutcomes]
  refine List.foldlRecOn _ _ ⟨List.nodup_nil, fun e he => absurd he (by simp)⟩ ?_
  exact fun lookup h o ho => isMap_insert h (Path.normal_normal o.image) _

lemma IsMap.perm (h : lookup.IsMap) (hperm : lookup'.Perm lookup) : lookup'.IsMap where
  nodup := (hperm.map Prod.fst).nodup_iff.mpr h.nodup
  normal entry hentry := h.normal entry (hperm.mem_iff.mp hentry)

lemma IsMap.find?_eq_of_perm (h : lookup.IsMap) (hperm : lookup'.Perm lookup) :
    lookup'.find? = lookup.find? := by
  funext image
  refine Option.ext fun converted => ?_
  rw [(h.perm hperm).find?_eq_some_iff, h.find?_eq_some_iff, hperm.mem_iff]

/-- The candidates of a reference are in normal form. -/
lemma normal_of_mem_candidates (h : p ∈ r.candidates site) : p.normal = p := by
  obtain ⟨c, -, rfl⟩ := List.mem_map.mp h
  exact Path.normal_normal _

/-- What is looked up is found by its text if it can be found by its steps. -/
lemma IsMap.find?_eq_none_iff (h : lookup.IsMap) (hp : p.normal = p) :
    lookup.find? p = none ↔ ¬ HasKey lookup p := by
  constructor
  · rintro hnone ⟨⟨i, c⟩, hmem, hsame⟩
    obtain rfl := Path.eq_of_same (h.normal _ hmem) hp hsame
    rw [h.find?_eq_some_iff.mpr hmem] at hnone
    exact absurd hnone (by simp)
  · intro hno
    by_contra hsome
    obtain ⟨c, hc⟩ := Option.ne_none_iff_exists'.mp hsome
    exact hno ⟨(p, c), mem_of_find? hc, by simp [Path.same]⟩

/-- **The first candidate that is an image.** -/
lemma IsMap.findSome?_eq_some_iff (h : lookup.IsMap) :
    (r.candidates site).findSome? lookup.find? = some converted ↔
      ∃ front p back image, r.candidates site = front ++ p :: back ∧
        (∀ q ∈ front, ¬ HasKey lookup q) ∧ (image, converted) ∈ lookup ∧ image.same p = true := by
  rw [List.findSome?_eq_some_iff]
  constructor
  · rintro ⟨front, p, back, hsplit, hfind, hbefore⟩
    refine ⟨front, p, back, p, hsplit, fun q hq => ?_, mem_of_find? hfind, by simp [Path.same]⟩
    have hcand : q ∈ r.candidates site := by
      rw [hsplit]
      exact List.mem_append_left _ hq
    exact (h.find?_eq_none_iff (normal_of_mem_candidates hcand)).mp (hbefore q hq)
  · rintro ⟨front, p, back, image, hsplit, hbefore, hmem, hsame⟩
    have hcand : ∀ q ∈ front ++ p :: back, q.normal = q := fun q hq =>
      normal_of_mem_candidates (hsplit ▸ hq)
    obtain rfl := Path.eq_of_same (h.normal _ hmem) (hcand p (by simp)) hsame
    refine ⟨front, image, back, hsplit, h.find?_eq_some_iff.mpr hmem, fun q hq => ?_⟩
    exact (h.find?_eq_none_iff (hcand q (by simp [hq]))).mpr (hbefore q hq)

lemma IsMap.findSome?_eq_none_iff (h : lookup.IsMap) :
    (r.candidates site).findSome? lookup.find? = none ↔
      ∀ p ∈ r.candidates site, ¬ HasKey lookup p := by
  rw [List.findSome?_eq_none_iff]
  exact forall₂_congr fun p hp => h.find?_eq_none_iff (normal_of_mem_candidates hp)

/-! ### Endings -/

/-- The first image that ends as told. -/
def findEnding? (lookup : Lookup) (ending : Path) : Option Path :=
  (List.find? (fun entry => entry.1.endsWith ending) lookup).map Prod.snd

lemma findEnding?_eq_some_iff :
    findEnding? lookup ending = some converted ↔
      ∃ image, IsFirstEnding lookup ending (image, converted) := by
  rw [findEnding?, Option.map_eq_some_iff]
  constructor
  · rintro ⟨⟨image, c⟩, hfind, rfl⟩
    obtain ⟨hends, front, back, hsplit, hbefore⟩ := List.find?_eq_some_iff_append.mp hfind
    exact ⟨image, front, back, hsplit, hends, by simpa using hbefore⟩
  · rintro ⟨image, front, back, hsplit, hends, hbefore⟩
    refine ⟨(image, converted), List.find?_eq_some_iff_append.mpr ⟨hends, front, back, hsplit, ?_⟩,
      rfl⟩
    simpa using hbefore

lemma findEnding?_eq_none_iff :
    findEnding? lookup ending = none ↔ ∀ e ∈ lookup, e.1.endsWith ending = false := by
  simp [findEnding?]

lemma findBySuffix?_eq (h : ∀ ending ∈ s, ending.text ≠ []) :
    lookup.findBySuffix? s = s.findSome? (findEnding? lookup) := by
  have hall : s.filter (fun ending => !ending.text.isEmpty) = s :=
    List.filter_eq_self.mpr fun ending hmem => by simpa using h ending hmem
  rw [findBySuffix?, hall]
  rfl

lemma mem_of_isFirstEnding (h : IsFirstEnding lookup ending entry) :
    entry ∈ lookup ∧ entry.1.endsWith ending = true := by
  obtain ⟨front, back, rfl, hends, -⟩ := h
  exact ⟨by simp, hends⟩

/-! ### The ends of references -/

/-- The name stands at the end of the reference, or behind the mark of an alias. -/
def IsLastName (r : Reference) (n : Text) : Prop :=
  (⟨r.clean⟩ : Path).fileName? = some n ∨ (⟨r.aliasSuffix⟩ : Path).fileName? = some n

/-- A path with an extension has a last name. -/
lemma exists_fileName?_point (s : Text) {x : Text} (hx : IsExtension x) :
    ∃ n, (⟨s ++ '.' :: x⟩ : Path).fileName? = some n := by
  obtain ⟨steps, v, hv, hcomp⟩ := Path.exists_components_append s
  refine ⟨v ++ '.' :: x, ?_⟩
  rw [Path.fileName?_eq_some_iff, hcomp _ (isName_point hv hx), List.getLast?_concat]

lemma exists_fileName?_of_mem_ofValue (h : r ∈ Reference.ofValue value) :
    (∃ n, (⟨r.clean⟩ : Path).fileName? = some n) ∧
      ∃ n, (⟨r.aliasSuffix⟩ : Path).fileName? = some n := by
  obtain ⟨stem, x, hx, hclean, -⟩ := Reference.exists_stem h
  obtain ⟨s, hs⟩ := Reference.exists_aliasSuffix stem
  rw [hs r x hclean, hclean]
  exact ⟨exists_fileName?_point stem hx, exists_fileName?_point s hx⟩

/-- The slash in front of a reference has no part in its last name. -/
lemma fileName?_publicSuffix (r : Reference) :
    (⟨r.publicSuffix⟩ : Path).fileName? = (⟨r.clean⟩ : Path).fileName? := by
  rw [Reference.publicSuffix, Text.dropStart?]
  split
  · next hslash =>
    obtain ⟨rest, hrest⟩ := List.isPrefixOf_iff_prefix.mp hslash
    rw [← hrest]
    exact (Option.ext fun n => Path.fileName?_slash_iff).symm
  · rfl

lemma text_ne_nil_of_fileName? {n : Text} (h : p.fileName? = some n) : p.text ≠ [] := fun hnil => by
  rw [Path.fileName?_iff_split, hnil] at h
  exact absurd h (by simp [Text.split, Path.stepsOf, Path.isSilent])

/-- The suffixes of a reference of a value have the last name of the reference. -/
lemma exists_fileName?_of_mem_suffixes (h : r ∈ Reference.ofValue value) (hp : p ∈ suffixes r) :
    ∃ n, p.fileName? = some n ∧ IsLastName r n := by
  obtain ⟨⟨n, hn⟩, m, hm⟩ := exists_fileName?_of_mem_ofValue h
  have hpublic : (⟨r.publicSuffix⟩ : Path).fileName? = some n := by rw [fileName?_publicSuffix, hn]
  rw [suffixes] at hp
  split at hp
  · simp only [List.mem_cons, List.not_mem_nil, or_false] at hp
    rcases hp with rfl | rfl
    · exact ⟨n, Path.fileName?_join _ hpublic, Or.inl hn⟩
    · exact ⟨n, hpublic, Or.inl hn⟩
  · rw [List.mem_singleton] at hp
    rw [hp]
    exact ⟨m, hm, Or.inr hm⟩

/-- The candidates of a reference of a value have the last name of the reference. -/
lemma exists_fileName?_of_mem_candidates (h : r ∈ Reference.ofValue value)
    (hp : p ∈ r.candidates site) : ∃ n, p.fileName? = some n ∧ IsLastName r n := by
  obtain ⟨⟨n, hn⟩, m, hm⟩ := exists_fileName?_of_mem_ofValue h
  have hpublic : (⟨r.publicSuffix⟩ : Path).fileName? = some n := by rw [fileName?_publicSuffix, hn]
  obtain ⟨c, -, rfl⟩ := List.mem_map.mp hp
  cases c with
  | publicDir | projectRoot | srcPublicDir =>
      exact ⟨n, Path.fileName?_normal (Path.fileName?_join _ hpublic), Or.inl hn⟩
  | relativeToFile => exact ⟨n, Path.fileName?_normal (Path.fileName?_join _ hn), Or.inl hn⟩
  | aliasRoot | aliasSrc => exact ⟨m, Path.fileName?_normal (Path.fileName?_join _ hm), Or.inr hm⟩

/-! ### Selection -/

lemma endsAs_iff : EndsAs r image ↔ ∃ ending ∈ suffixes r, image.endsWith ending = true := by
  rw [EndsAs, suffixes]
  cases r.style <;> simp [publicEnding]

lemma findBySuffix?_suffixes (h : r ∈ Reference.ofValue value) :
    lookup.findBySuffix? (suffixes r) = (suffixes r).findSome? (findEnding? lookup) := by
  refine findBySuffix?_eq fun ending hmem => ?_
  obtain ⟨n, hn, -⟩ := exists_fileName?_of_mem_suffixes h hmem
  exact text_ne_nil_of_fileName? hn

lemma Selects.mem (h : Selects lookup r site entry) : entry ∈ lookup := by
  cases h with
  | candidate hsplit hbefore hmem hsame => exact hmem
  | publicEnding hstyle hnone hfirst => exact (mem_of_isFirstEnding hfirst).1
  | ending hstyle hnone hno hfirst => exact (mem_of_isFirstEnding hfirst).1
  | aliasEnding hstyle hnone hfirst => exact (mem_of_isFirstEnding hfirst).1

/-- What is selected is a candidate or, when no candidate is an image, ends as the reference. -/
lemma Selects.cases_mem (h : Selects lookup r site entry) :
    (∃ p ∈ r.candidates site, entry.1.same p = true) ∨
      (∀ p ∈ r.candidates site, ¬ HasKey lookup p) ∧ EndsAs r entry.1 := by
  cases h with
  | @candidate front back p hsplit hbefore hmem hsame => exact Or.inl ⟨p, by simp [hsplit], hsame⟩
  | publicEnding hstyle hnone hfirst =>
      refine Or.inr ⟨hnone, ?_⟩
      simp only [EndsAs, hstyle]
      exact Or.inl (mem_of_isFirstEnding hfirst).2
  | ending hstyle hnone hno hfirst =>
      refine Or.inr ⟨hnone, ?_⟩
      simp only [EndsAs, hstyle]
      exact Or.inr (mem_of_isFirstEnding hfirst).2
  | aliasEnding hstyle hnone hfirst =>
      refine Or.inr ⟨hnone, ?_⟩
      simp only [EndsAs, hstyle]
      exact (mem_of_isFirstEnding hfirst).2

/-- **A match is the selected entry.** -/
lemma match?_eq_some_iff (h : r ∈ Reference.ofValue value) (hmap : lookup.IsMap) :
    lookup.match? r site = some converted ↔ ∃ image, Selects lookup r site (image, converted) := by
  rw [match?, findBySuffix?_suffixes h]
  constructor
  · intro hmatch
    split at hmatch
    · next c hc =>
      obtain rfl := Option.some.inj hmatch
      obtain ⟨front, p, back, image, hsplit, hbefore, hmem, hsame⟩ :=
        hmap.findSome?_eq_some_iff.mp hc
      exact ⟨image, .candidate hsplit hbefore hmem hsame⟩
    · next hnone =>
      have hno := hmap.findSome?_eq_none_iff.mp hnone
      rw [suffixes] at hmatch
      split at hmatch
      · next hstyle =>
        rw [List.findSome?_cons] at hmatch
        split at hmatch
        · next c hc =>
          obtain rfl := Option.some.inj hmatch
          obtain ⟨image, hfirst⟩ := findEnding?_eq_some_iff.mp hc
          exact ⟨image, .publicEnding hstyle hno hfirst⟩
        · next hpublic =>
          rw [List.findSome?_singleton] at hmatch
          obtain ⟨image, hfirst⟩ := findEnding?_eq_some_iff.mp hmatch
          exact ⟨image, .ending hstyle hno (findEnding?_eq_none_iff.mp hpublic) hfirst⟩
      · next hstyle =>
        rw [List.findSome?_singleton] at hmatch
        obtain ⟨image, hfirst⟩ := findEnding?_eq_some_iff.mp hmatch
        exact ⟨image, .aliasEnding hstyle hno hfirst⟩
  · rintro ⟨image, hselects⟩
    cases hselects with
    | candidate hsplit hbefore hmem hsame =>
        rw [hmap.findSome?_eq_some_iff.mpr ⟨_, _, _, image, hsplit, hbefore, hmem, hsame⟩]
    | publicEnding hstyle hnone hfirst =>
        have hc := findEnding?_eq_some_iff.mpr ⟨image, hfirst⟩
        rw [publicEnding] at hc
        rw [hmap.findSome?_eq_none_iff.mpr hnone]
        simp only [suffixes, hstyle, List.findSome?_cons, hc]
    | ending hstyle hnone hno hfirst =>
        have hpublic := findEnding?_eq_none_iff.mpr hno
        have hc := findEnding?_eq_some_iff.mpr ⟨image, hfirst⟩
        rw [publicEnding] at hpublic
        rw [hmap.findSome?_eq_none_iff.mpr hnone]
        simp only [suffixes, hstyle, List.findSome?_cons, hpublic, hc]
    | aliasEnding hstyle hnone hfirst =>
        have hc := findEnding?_eq_some_iff.mpr ⟨image, hfirst⟩
        rw [hmap.findSome?_eq_none_iff.mpr hnone]
        simp only [suffixes, hstyle, List.findSome?_cons, hc]

/-- **There is no match** if no image is a candidate or ends as the reference, and only then. -/
lemma match?_eq_none_iff_forall (h : r ∈ Reference.ofValue value) (hmap : lookup.IsMap) :
    lookup.match? r site = none ↔ ∀ entry ∈ lookup,
      (∀ p ∈ r.candidates site, entry.1.same p = false) ∧ ¬ EndsAs r entry.1 := by
  rw [match?_eq_none_iff]
  refine forall₂_congr fun entry hentry => ?_
  have hsame : entry.1 ∈ r.candidates site ↔ ∃ p ∈ r.candidates site, entry.1.same p = true := by
    refine ⟨fun hmem => ⟨_, hmem, by simp [Path.same]⟩, ?_⟩
    rintro ⟨p, hp, hsame⟩
    rwa [Path.eq_of_same (hmap.normal _ hentry) (normal_of_mem_candidates hp) hsame]
  have hends : EndsAs r entry.1 ↔
      ∃ ending ∈ suffixes r, ending.text ≠ [] ∧ entry.1.endsWith ending = true := by
    rw [endsAs_iff]
    refine exists_congr fun ending => and_congr_right fun hmem => ?_
    obtain ⟨n, hn, -⟩ := exists_fileName?_of_mem_suffixes h hmem
    rw [and_iff_right (text_ne_nil_of_fileName? hn)]
  rw [NamedBy, hsame, ← hends, not_or]
  simp

/-- The name of the selected image stands at the end of the reference. -/
lemma fileName?_of_selects (h : r ∈ Reference.ofValue value)
    (hselects : Selects lookup r site entry) :
    ∃ n, entry.1.fileName? = some n ∧ IsLastName r n := by
  rcases hselects.cases_mem with ⟨p, hp, hsame⟩ | ⟨-, hends⟩
  · obtain ⟨n, hn, hlast⟩ := exists_fileName?_of_mem_candidates h hp
    have hsteps : entry.1.components = p.components := by simpa [Path.same] using hsame
    refine ⟨n, ?_, hlast⟩
    rw [Path.fileName?_eq_some_iff, hsteps]
    exact Path.fileName?_eq_some_iff.mp hn
  · obtain ⟨ending, hmem, hends⟩ := endsAs_iff.mp hends
    obtain ⟨n, hn, hlast⟩ := exists_fileName?_of_mem_suffixes h hmem
    exact ⟨n, Path.fileName?_of_endsWith hends hn, hlast⟩

/-- A match by suffix, when no two images end as the reference does. -/
lemma match?_eq_some_iff_of_one (h : r ∈ Reference.ofValue value) (hmap : lookup.IsMap)
    (hnone : ∀ p ∈ r.candidates site, ¬ HasKey lookup p)
    (hone : ∀ d ∈ lookup, ∀ e ∈ lookup, EndsAs r d.1 → EndsAs r e.1 → d = e) :
    lookup.match? r site = some converted ↔
      ∃ image, (image, converted) ∈ lookup ∧ EndsAs r image := by
  have hends : ∀ {c}, lookup.match? r site = some c →
      ∃ image, (image, c) ∈ lookup ∧ EndsAs r image := by
    intro c hmatch
    obtain ⟨image, hselects⟩ := (match?_eq_some_iff h hmap).mp hmatch
    rcases hselects.cases_mem with ⟨p, hp, hsame⟩ | ⟨-, hends⟩
    · exact absurd ⟨_, hselects.mem, hsame⟩ (hnone p hp)
    · exact ⟨image, hselects.mem, hends⟩
  refine ⟨hends, ?_⟩
  rintro ⟨image, hmem, himage⟩
  have hsome : lookup.match? r site ≠ none := fun hno =>
    ((match?_eq_none_iff_forall h hmap).mp hno _ hmem).2 himage
  obtain ⟨c, hc⟩ := Option.ne_none_iff_exists'.mp hsome
  obtain ⟨image', hmem', himage'⟩ := hends hc
  have hsame := hone _ hmem _ hmem' himage himage'
  rw [Prod.mk.injEq] at hsame
  rw [hc, hsame.2]

/-- **The order of the lookup tells nothing** when a candidate is an image, or no two images end as
the reference does. -/
lemma match?_eq_of_perm (h : r ∈ Reference.ofValue value) (hmap : lookup.IsMap)
    (hperm : lookup'.Perm lookup)
    (hone : (∃ p ∈ r.candidates site, HasKey lookup p) ∨
      ∀ d ∈ lookup, ∀ e ∈ lookup, EndsAs r d.1 → EndsAs r e.1 → d = e) :
    lookup'.match? r site = lookup.match? r site := by
  have hfind := hmap.find?_eq_of_perm hperm
  by_cases hkey : ∃ p ∈ r.candidates site, HasKey lookup p
  · have hsome : (r.candidates site).findSome? lookup.find? ≠ none := fun hno => by
      obtain ⟨p, hp, hkey⟩ := hkey
      exact hmap.findSome?_eq_none_iff.mp hno p hp hkey
    obtain ⟨c, hc⟩ := Option.ne_none_iff_exists'.mp hsome
    rw [match?, match?, hfind, hc]
  · have hone := hone.resolve_left hkey
    have hnone : ∀ p ∈ r.candidates site, ¬ HasKey lookup p := fun p hp h => hkey ⟨p, hp, h⟩
    have hmem : ∀ {e}, e ∈ lookup' ↔ e ∈ lookup := hperm.mem_iff
    refine Option.ext fun c => ?_
    rw [match?_eq_some_iff_of_one h hmap hnone hone, match?_eq_some_iff_of_one h (hmap.perm hperm)]
    · simp only [hmem]
    · rintro p hp ⟨e, he, hsame⟩
      exact hnone p hp ⟨e, hmem.mp he, hsame⟩
    · exact fun d hd e he => hone d (hmem.mp hd) e (hmem.mp he)

/-- **A match is the entry that the reference selects.** The first candidate that is an image
decides, else the first image that ends as the reference does. There is no match if there is no such
image, and only then. The selected image has the last name of the reference, and the order of the
lookup tells nothing when a candidate is an image, or no two images end as the reference does. -/
theorem match?_isSelection (site : Site) (h : r ∈ Reference.ofValue value) (hmap : lookup.IsMap) :
    (∀ converted, lookup.match? r site = some converted ↔
      ∃ image, Selects lookup r site (image, converted)) ∧
    (lookup.match? r site = none ↔ ∀ entry ∈ lookup,
      (∀ p ∈ r.candidates site, entry.1.same p = false) ∧ ¬ EndsAs r entry.1) ∧
    (∀ entry, Selects lookup r site entry → ∃ n, entry.1.fileName? = some n ∧ IsLastName r n) ∧
    ∀ lookup' : Lookup, lookup'.Perm lookup →
      ((∃ p ∈ r.candidates site, HasKey lookup p) ∨
        ∀ d ∈ lookup, ∀ e ∈ lookup, EndsAs r d.1 → EndsAs r e.1 → d = e) →
      lookup'.match? r site = lookup.match? r site :=
  ⟨fun _ => match?_eq_some_iff h hmap, match?_eq_none_iff_forall h hmap,
    fun _ hselects => fileName?_of_selects h hselects,
    fun _ hperm hone => match?_eq_of_perm h hmap hperm hone⟩

/-- Two images end as a reference does, and the one below `public` is selected although it stands
behind the other one. -/
theorem match?_isSelection_of_public :
    let r := Reference.ofPath "/a/logo.png".toList 0
    let site : Site := ⟨⟨"/repo".toList⟩, ⟨"/repo/web/app/page.tsx".toList⟩⟩
    let converted (image new : String) : Outcome :=
      { image := ⟨image.toList⟩, converted := ⟨new.toList⟩, oldSize := 2, newSize := 1,
        skipped := false, error := none }
    let lookup := ofOutcomes [converted "/repo/docs/a/logo.png" "/repo/docs/a/logo.webp",
      converted "/repo/web/./public/a/logo.png" "/repo/web/./public/a/logo.webp"]
    r ∈ Reference.ofValue "/a/logo.png".toList ∧ lookup.IsMap ∧
      lookup.match? r site = some ⟨"/repo/web/public/a/logo.webp".toList⟩ ∧
      ∃ image, Selects lookup r site (image, ⟨"/repo/web/public/a/logo.webp".toList⟩) ∧
        ∃ n, image.fileName? = some n ∧ IsLastName r n := by
  intro r site converted lookup
  have hr : r ∈ Reference.ofValue "/a/logo.png".toList := by decide +kernel
  have hmap : lookup.IsMap := isMap_ofOutcomes _
  obtain ⟨hsome, -, hlast, -⟩ := match?_isSelection site hr hmap
  have hmatch : lookup.match? r site = some ⟨"/repo/web/public/a/logo.webp".toList⟩ := by
    decide +kernel
  obtain ⟨image, hselects⟩ := (hsome _).mp hmatch
  exact ⟨hr, hmap, hmatch, image, hselects, hlast _ hselects⟩

end ImageMigration.Lookup
