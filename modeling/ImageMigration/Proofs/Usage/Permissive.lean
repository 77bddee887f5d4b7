/-
The images that an update would take a reference for, and those that count as used.

Both sides look at the candidates of a reference first. Behind them, an update compares the end of
an image's path by whole steps, for every style of references. The search for used images compares
texts, and does so for references from the root only.

* `Path.text_endsWith_of_endsWith`: steps that are written without silent names end a path of a
  place as a text, too;
* `Reference.IsPlain`: references from the root that are written without silent names;
* `used_of_match?`: **an image that an update would take a reference for is used** when it is a
  candidate, or the reference is plain;
* `unused_of_match?`: an image that other references are taken for by their suffix may be unused.
-/
import ImageMigration.Migration
import ImageMigration.Proofs.Lookup.Match
import ImageMigration.Proofs.Reference.Place
import ImageMigration.Proofs.Usage.Index

namespace ImageMigration

open Disk (pathOf)
open ImageMigration.Path (isSilent Component)

/-! ### Ends of paths -/

section Endings

variable {image : Path} {t : Text} {l : Location}

/-- The steps of a relative path that is written without silent names. -/
lemma components_of_relative (habs : t.head? ≠ some '/')
    (hsilent : ∀ n ∈ Text.split '/' t, isSilent n = false) :
    (⟨t⟩ : Path).components = Path.stepsOf (Text.split '/' t) := by
  have hfirst : (Text.split '/' t).head? ≠ some ['.'] := fun h =>
    absurd (hsilent _ (List.mem_of_mem_head? h)) (by decide)
  rw [Path.components_of_head habs, if_neg hfirst, List.nil_append]

lemma text_ofSegment (n : Text) : (Component.ofSegment n).text = n := by
  rw [Component.ofSegment]
  split
  · next hdots => exact hdots.symm
  · rfl

/-- Steps that end a place are names of the place. -/
lemma suffix_of_stepsOf_suffix {names : List Text} (hslash : ∀ n ∈ names, '/' ∉ n)
    (hsilent : ∀ n ∈ names, isSilent n = false)
    (h : Path.stepsOf names <:+ .root :: l.map Component.name) : names <:+ l := by
  have hnames : Path.stepsOf names = names.map Component.ofSegment := by
    rw [Path.stepsOf, List.filter_eq_self.mpr]
    intro n hn
    simp [hsilent n hn]
  have hends : Path.stepsOf names <:+ l.map Component.name := by
    rcases List.suffix_cons_iff.mp h with heq | hsuffix
    · have hroot : Component.root ∈ Path.stepsOf names := by rw [heq]; simp
      rcases Path.mem_stepsOf hslash hroot with hc | ⟨n, -, hc⟩ <;> exact absurd hc (by simp)
    · exact hsuffix
  rw [hnames] at hends
  obtain ⟨front, hfront⟩ := hends
  obtain ⟨above, below, hl, -, hbelow⟩ := List.map_eq_append_iff.mp hfront.symm
  -- the text of a step is the name that it was taken from
  have hsame : below = names := by
    calc below = (below.map Component.name).map Component.text := by
          rw [List.map_map]
          exact (List.map_id below).symm
      _ = (names.map Component.ofSegment).map Component.text := by rw [hbelow]
      _ = names := by
          have hid : Component.text ∘ Component.ofSegment = id := funext text_ofSegment
          rw [List.map_map, hid, List.map_id]
  exact ⟨above, by rw [hl, hsame]⟩

/-- Steps that are written without silent names end the path of a place as a text, too. -/
lemma Path.text_endsWith_of_endsWith (hi : image.IsPlace) (habs : t.head? ≠ some '/')
    (hsilent : ∀ n ∈ Text.split '/' t, isSilent n = false) (h : image.endsWith ⟨t⟩ = true) :
    image.text.endsWith t = true := by
  rw [Path.endsWith, components_of_relative habs hsilent, ← hi.2, components_pathOf hi.1,
    List.isSuffixOf_iff_suffix] at h
  obtain ⟨front, hfront⟩ :=
    suffix_of_stepsOf_suffix (fun n hn => Text.not_mem_of_mem_split hn) hsilent h
  rw [← hi.2, text_pathOf, ← hfront, Text.endsWith, List.isSuffixOf_iff_suffix]
  by_cases hnil : front = []
  · rw [hnil, List.nil_append, Text.join_split]
    exact List.suffix_cons _ _
  · rw [Text.join_append hnil (Text.split_ne_nil _ _), Text.join_split]
    exact ⟨'/' :: Text.join '/' front ++ ['/'], by simp⟩

end Endings

/-! ### References -/

/-- A reference is from the root, and written without silent names. -/
structure Reference.IsPlain (r : Reference) : Prop where
  rooted : r.isRootAbsolute = true
  noSilent : ∀ n ∈ Text.split '/' r.publicSuffix, isSilent n = false

section References

variable {r : Reference} {site : Site} {image : Path}

/-- A plain reference names an image only as a candidate, or as a text at the end of its path. -/
lemma endsWithUsage_of_namedBy (hi : image.IsPlace) (hplain : r.IsPlain)
    (h : Lookup.NamedBy r site image) :
    image ∈ r.candidates site ∨ image.endsWithUsage r.publicSuffix = true := by
  obtain ⟨hr, hsilent⟩ := hplain
  rcases h with hcand | ⟨s, hs, hne, hend⟩
  · exact Or.inl hcand
  right
  have habs : r.publicSuffix.head? ≠ some '/' := by
    intro hhead
    obtain ⟨rest, hrest⟩ := List.head?_eq_some_iff.mp hhead
    have hfirst := hsilent [] (by rw [hrest]; simp [Text.split])
    exact absurd hfirst (by decide)
  have hnonempty : r.publicSuffix ≠ [] := by
    intro hnil
    have hfirst := hsilent [] (by rw [hnil]; simp [Text.split])
    exact absurd hfirst (by decide)
  have hstyle : r.style = .rootAbsolute := by rw [Reference.style, if_pos hr]
  have hjoin : (⟨"public".toList⟩ : Path).join ⟨r.publicSuffix⟩
      = ⟨"public".toList ++ '/' :: r.publicSuffix⟩ := by
    have hrel : (⟨r.publicSuffix⟩ : Path).isAbsolute = false := by
      simpa [Path.isAbsolute] using habs
    rw [Path.join, if_neg (by simp [hrel]), if_neg (by decide)]
  rw [Lookup.suffixes, hstyle, hjoin] at hs
  rw [Path.endsWithUsage, hjoin, Bool.and_eq_true, Bool.or_eq_true]
  refine ⟨by simpa using hnonempty, ?_⟩
  simp only [List.mem_cons, List.not_mem_nil, or_false] at hs
  rcases hs with rfl | rfl
  · refine Or.inl (Path.text_endsWith_of_endsWith hi (by simp) ?_ hend)
    rw [Text.split_append (by decide)]
    intro m hm
    rcases List.mem_cons.mp hm with rfl | hm
    · decide
    · exact hsilent m hm
  · exact Or.inr (Path.text_endsWith_of_endsWith hi habs hsilent hend)

end References

/-! ### Used images -/

/-- **An image that an update would take a reference for is used,** when it is a candidate of the
reference, or when the reference is plain. -/
theorem used_of_match? {parser : ParserOf} {codes images : List Path} {project file : Path}
    {config : Config} {h : Host} {source : Text} {literals : List Literal} {span : Span}
    {value : Text} {verbatim : Bool} {r : Reference} {image converted : Path}
    (hfile : file ∈ codes) (hreadable : ∀ n, h.faults n .read file = none)
    (hread : h.disk.ReadsAs parser file source literals)
    (hliteral : .string span value verbatim ∈ literals) (hr : r ∈ Reference.ofValue value)
    (himage : image ∈ images) (habs : image.isAbsolute = true) (hnormal : image.normal = image)
    (hmatch : Lookup.match? [(image, converted)] r ⟨project, file⟩ = some converted)
    (hnames : image ∈ r.candidates ⟨project, file⟩ ∨ r.IsPlain) :
    image ∈ (classify parser codes images project config h).1.used ∧
      image ∉ (classify parser codes images project config h).1.unused := by
  have hplace : image.IsPlace := isPlace_iff.mpr ⟨habs, hnormal⟩
  have hcovers : (indexUsages parser codes project h).1.CoversFile parser h.disk project file :=
    covers_indexUsages hfile hreadable hread
  have hstatic : r.kind = .static := Reference.kind_of_mem_ofValue hr
  have hknown := hcovers.covers hread _ hliteral r hr hstatic
  have hnamed : Lookup.NamedBy r ⟨project, file⟩ image := by
    obtain ⟨i, hmem, hi⟩ := Lookup.exists_mem_of_match? hmatch
    rw [List.mem_singleton, Prod.mk.injEq] at hmem
    rwa [← hmem.1]
  have hindexed : (indexUsages parser codes project h).1.names image = true := by
    rcases hnames with hcand | hplain
    · exact UsageIndex.names_of_mem_candidates hknown hcand
    · rcases endsWithUsage_of_namedBy hplace hplain hnamed with hcand | hends
      · exact UsageIndex.names_of_mem_candidates hknown hcand
      · exact UsageIndex.names_of_endsWithUsage hknown hplain.rooted hends
  have hused : image ∈ (classify parser codes images project config h).1.used :=
    mem_used_iff.mpr ⟨List.mem_map.mpr ⟨image, himage, hnormal⟩, hindexed⟩
  exact ⟨hused, not_mem_unused_of_mem_used hused⟩

/-! ### A project with one source -/

/-- A project with one source, which refers to one image. -/
def oneSource (text : Text) : Disk :=
  .ofPaths ["/repo".toList, "/repo/src".toList] [("/repo/src/home.ts".toList, text.toUtf8)]

/-- A reference from the root, to an image in the public directory of a part of the project. -/
theorem used_of_match?_monorepo :
    let image : Path := ⟨"/repo/apps/web/public/img/logo.png".toList⟩
    let converted : Path := ⟨"/repo/apps/web/public/img/logo.webp".toList⟩
    let file : Path := ⟨"/repo/src/home.ts".toList⟩
    let project : Path := ⟨"/repo".toList⟩
    let r : Reference := .ofPath "/img/logo.png".toList 0
    Lookup.match? [(image, converted)] r ⟨project, file⟩ = some converted ∧
      image ∈ (classify Script.literals? [file] [image] project .default
        (.ofDisk (oneSource "const logo = '/img/logo.png';\n".toList))).1.used := by
  intro image converted file project r
  have hmatch : Lookup.match? [(image, converted)] r ⟨project, file⟩ = some converted := by
    decide +kernel
  have hread : (oneSource "const logo = '/img/logo.png';\n".toList).ReadsAs Script.literals? file
      "const logo = '/img/logo.png';\n".toList [.string ⟨13, 28⟩ "/img/logo.png".toList true] :=
    ⟨by decide +kernel, by decide +kernel⟩
  refine ⟨hmatch, ?_⟩
  exact (used_of_match? (List.mem_singleton.mpr rfl) (fun _ => rfl) hread
    (List.mem_singleton.mpr rfl) (by decide +kernel) (List.mem_singleton.mpr rfl) rfl
    (by decide +kernel) hmatch (Or.inr ⟨rfl, by decide +kernel⟩)).1

/-- **An update may take a reference for an image that counts as unused**: it takes a relative one
for any image whose path ends with it, and the steps of one from the root need not be spelled alike.
The search for used images asks for candidates, and for texts at the end of paths. -/
theorem unused_of_match? :
    let file : Path := ⟨"/repo/src/home.ts".toList⟩
    let project : Path := ⟨"/repo".toList⟩
    ∀ c ∈ [("logo.png".toList, "/repo/public/img/logo".toList),
        ("/x//logo.png".toList, "/repo/apps/x/logo".toList)],
      let image : Path := ⟨c.2 ++ ".png".toList⟩
      let converted : Path := ⟨c.2 ++ ".webp".toList⟩
      let source : Text := "const logo = '".toList ++ c.1 ++ "';\n".toList
      (oneSource source).ReadsAs Script.literals? file source
          [.string ⟨13, 15 + c.1.length⟩ c.1 true] ∧
        .ofPath c.1 0 ∈ Reference.ofValue c.1 ∧
        Lookup.match? [(image, converted)] (.ofPath c.1 0) ⟨project, file⟩ = some converted ∧
        image ∉ (classify Script.literals? [file] [image] project .default
          (.ofDisk (oneSource source))).1.used ∧
        image ∈ (classify Script.literals? [file] [image] project .default
          (.ofDisk (oneSource source))).1.unused := by
  intro file project c hc
  rcases List.mem_cons.mp hc with rfl | hc
  · refine ⟨⟨?_, ?_⟩, ?_⟩ <;> decide +kernel
  · rcases List.mem_singleton.mp hc with rfl
    refine ⟨⟨?_, ?_⟩, ?_⟩ <;> decide +kernel

end ImageMigration
