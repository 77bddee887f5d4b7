/-
Images that a string names exactly.

A string that holds a path, and nothing else, is read as that path, whatever its names are made of:
blanks, points, or words that would be a width elsewhere. What must not occur are a question mark,
where a query starts, and a comma, which makes a list of the string. As the name of an image ends in
a letter of its extension, nothing is cut off at the end.

* `NamesExactly`: a string is the path of an image, from the public directory or from its source;
* `Reference.tokens_eq_self`: a value that ends like an image is one token, unless it is a list;
* `Reference.ofPath_mem_ofValue`: so it is a reference as a whole;
* `used_of_namesExactly`: **an image that a string names exactly is used**;
* `unused_of_comma`: an image with a comma in its name may be unused all the same.
-/
import ImageMigration.Proofs.Path.Extension
import ImageMigration.Proofs.Reference.Parts
import ImageMigration.Proofs.Usage.Permissive

namespace ImageMigration

open Disk (pathOf)
open ImageMigration.Path (isSilent)

/-- A string is the path of an image, as written from the public directory of the project or from
the directory of its source. -/
inductive NamesExactly (site : Site) (image : Path) : Text → Prop where
  | fromPublic {p : Text} (hrel : (⟨p⟩ : Path).isAbsolute = false)
      (himage : image = (site.project.join ⟨"public".toList⟩).join ⟨p⟩) :
      NamesExactly site image ('/' :: p)
  | fromSource {p : Text} {dir : Path} (hrel : (⟨p⟩ : Path).isAbsolute = false)
      (hdir : site.file.parent? = some dir) (himage : image = dir.join ⟨p⟩) :
      NamesExactly site image ('.' :: '/' :: p)

/-! ### Joins -/

section Joins

variable {dir image : Path} {t : Text}

/-- What a relative path is joined to a directory by, if the result is absolute. -/
lemma exists_join_front (habs : (dir.join ⟨t⟩).isAbsolute = true)
    (hrel : (⟨t⟩ : Path).isAbsolute = false) :
    ∃ front : Text, (front = [] ∨ front.head? = some '/') ∧
      ∀ s : Text, (⟨s⟩ : Path).isAbsolute = false → dir.join ⟨s⟩ = ⟨front ++ '/' :: s⟩ := by
  have hdir : dir.text.isEmpty = false := by
    by_contra hempty
    rw [Path.join, if_pos (by simpa using Or.inr hempty), hrel] at habs
    exact absurd habs (by simp)
  have hjoin : ∀ s : Text, (⟨s⟩ : Path).isAbsolute = false → dir.join ⟨s⟩
      = if dir.text.getLast? = some '/' then ⟨dir.text ++ s⟩ else ⟨dir.text ++ '/' :: s⟩ := by
    intro s hs
    rw [Path.join, if_neg (by simp [hs, hdir])]
  have hroot : dir.text.head? = some '/' := by
    have hhead : ∀ x : Text, (dir.text ++ x).head? = dir.text.head? := fun x => by
      rw [List.head?_append_of_ne_nil _ (by simpa using hdir)]
    rw [hjoin t hrel, Path.isAbsolute] at habs
    split at habs <;> rw [hhead] at habs <;> simpa using habs
  by_cases hlast : dir.text.getLast? = some '/'
  · obtain ⟨front, hfront⟩ := List.getLast?_eq_some_iff.mp hlast
    refine ⟨front, ?_, fun s hs => ?_⟩
    · cases front with
      | nil => exact Or.inl rfl
      | cons c front =>
          rw [hfront] at hroot
          exact Or.inr hroot
    · rw [hjoin s hs, if_pos hlast, hfront]
      simp
  · exact ⟨dir.text, Or.inr hroot, fun s hs => by rw [hjoin s hs, if_neg hlast]⟩

/-- A point between slashes takes no step. -/
lemma components_point {front : Text} (h : front = [] ∨ front.head? = some '/') (t : Text) :
    (⟨front ++ '/' :: '.' :: '/' :: t⟩ : Path).components
      = (⟨front ++ '/' :: t⟩ : Path).components := by
  have hpoint : Text.split '/' (['.'] ++ '/' :: t) = ['.'] :: Text.split '/' t :=
    Text.split_append (by decide)
  rw [List.cons_append, List.nil_append] at hpoint
  have hsteps : Path.stepsOf (['.'] :: Text.split '/' t) = Path.stepsOf (Text.split '/' t) := rfl
  rcases h with rfl | h
  · rw [List.nil_append, List.nil_append, Path.components_of_text rfl, Path.components_of_text rfl,
      hpoint, hsteps]
  · obtain ⟨rest, rfl⟩ := List.head?_eq_some_iff.mp h
    rw [Path.components_of_text (List.cons_append ..), Path.components_of_text (List.cons_append ..),
      Text.split_append_sep, Text.split_append_sep, Path.stepsOf_append, Path.stepsOf_append, hpoint,
      hsteps]

/-- A path that starts with a point denotes what stands behind it. -/
lemma normal_join_point (habs : (dir.join ⟨t⟩).isAbsolute = true)
    (hrel : (⟨t⟩ : Path).isAbsolute = false) :
    (dir.join ⟨'.' :: '/' :: t⟩).normal = (dir.join ⟨t⟩).normal := by
  obtain ⟨front, hfront, hjoin⟩ := exists_join_front habs hrel
  rw [hjoin _ rfl, hjoin _ hrel, Path.normal, Path.normal, Path.resolvedSteps, Path.resolvedSteps,
    components_point hfront]

/-- The end of a path behind a slash ends with the file name. -/
lemma suffix_of_text_eq {front : Text} {l : Location} {n : Text} (hn : '/' ∉ n)
    (h : (pathOf (l ++ [n])).text = front ++ '/' :: t) : n <:+ t := by
  have hname : n <:+ front ++ '/' :: t := by
    rw [← h]
    by_cases hl : l = []
    · rw [hl]
      exact List.suffix_cons _ _
    · rw [text_pathOf_concat hl]
      exact ⟨(pathOf l).text ++ ['/'], by simp⟩
  rcases List.suffix_or_suffix_of_suffix hname (List.suffix_append front ('/' :: t)) with hin | hin
  · rcases List.suffix_cons_iff.mp hin with heq | hsuffix
    · exact absurd (heq ▸ List.mem_cons_self) hn
    · exact hsuffix
  · exact absurd (hin.subset List.mem_cons_self) hn

end Joins

/-! ### Texts that end like an image -/

/-- A text ends in the extension of an image. -/
def Text.EndsLikeImage (t : Text) : Prop :=
  ∃ stem e, t = stem ++ '.' :: e ∧ (ImageFormat.ofExtension? e).isSome = true

namespace Text.EndsLikeImage

variable {t : Text}

lemma hasImageExtension (h : t.EndsLikeImage) : t.hasImageExtension = true := by
  obtain ⟨stem, e, rfl, he⟩ := h
  rw [Text.hasImageExtension, Text.imageExtension?, List.find?_isSome]
  refine ⟨Text.lowerAscii ('.' :: e), Reference.isSome_ofExtension?_iff.mp he, ?_⟩
  rw [Text.lowerAscii, Text.lowerAscii, List.map_append, List.isSuffixOf_iff_suffix]
  exact List.suffix_append _ _

/-- An image ends in a letter that is neither white space nor a unit of width. -/
lemma exists_getLast? (h : t.EndsLikeImage) :
    ∃ c, t.getLast? = some c ∧ isBlank c = false ∧ c ≠ 'w' ∧ c ≠ 'x' := by
  obtain ⟨stem, e, rfl, he⟩ := h
  have hends : ∀ x ∈ imageExtensions, x.getLast? = some 'g' := by decide
  have hlast := hends _ (Reference.isSome_ofExtension?_iff.mp he)
  obtain ⟨front, c, hfront⟩ :=
    (List.eq_nil_or_concat' ('.' :: e)).resolve_left (List.cons_ne_nil _ _)
  rw [hfront] at hlast ⊢
  have hg : c.toLower = 'g' := by simpa [Text.lowerAscii] using hlast
  refine ⟨c, ?_, ?_, ?_, ?_⟩
  · rw [← List.append_assoc, List.getLast?_concat]
  · -- white space has no other case
    by_contra hblank
    rw [Bool.not_eq_false] at hblank
    have hupper : ¬ ('A'.val ≤ c.val ∧ c.val ≤ 'Z'.val) := by
      rintro ⟨hlow, hhigh⟩
      have hlow' : 65 ≤ c.toNat := hlow
      have hhigh' : c.toNat ≤ 90 := hhigh
      simp only [isBlank, Bool.or_eq_true, Bool.and_eq_true, decide_eq_true_eq, beq_iff_eq] at hblank
      omega
    have hsame : c.toLower = c := dif_neg hupper
    rw [hsame.symm.trans hg] at hblank
    exact absurd hblank (by decide)
  · rintro rfl
    exact absurd hg (by decide)
  · rintro rfl
    exact absurd hg (by decide)

end Text.EndsLikeImage

/-! ### References -/

namespace Reference

variable {value : Text}

/-- A descriptor ends with its unit. -/
lemma getLast?_of_isDescriptor {word : Text} (h : isDescriptor word = true) :
    word.getLast? = some 'w' ∨ word.getLast? = some 'x' := by
  obtain ⟨digits, unit, -, hunit, hword⟩ := exists_of_isDescriptor h
  have hlast : ∀ front : Text, word = front ++ unit →
      word.getLast? = some 'w' ∨ word.getLast? = some 'x' := by
    rintro front rfl
    rcases hunit with rfl | rfl <;> simp
  rcases hword with hword | ⟨fraction, -, -, hword⟩
  · exact hlast digits hword
  · exact hlast (digits ++ '.' :: fraction) (by rw [hword]; simp)

/-- A text that ends in a letter other than a unit does not end with a descriptor and white space. -/
lemma isBlankText_and_isDescriptor_eq_false {front descriptor tail : Text} {last : Char}
    (hlast : (front ++ descriptor ++ tail).getLast? = some last) (hblank : isBlank last = false)
    (hw : last ≠ 'w') (hx : last ≠ 'x') : (tail.isBlankText && isDescriptor descriptor) = false := by
  rcases List.eq_nil_or_concat' tail with rfl | ⟨tail, b, rfl⟩
  · rw [Bool.and_eq_false_iff, ← Bool.not_eq_true (isDescriptor descriptor)]
    refine Or.inr fun hdescriptor => ?_
    have hunit := getLast?_of_isDescriptor hdescriptor
    have hne : descriptor ≠ [] := by
      rintro rfl
      simp at hunit
    rw [List.append_nil, List.getLast?_append_of_ne_nil _ hne] at hlast
    rw [hlast] at hunit
    simp [hw, hx] at hunit
  · rw [← List.append_assoc, List.getLast?_concat, Option.some.injEq] at hlast
    rw [Text.isBlankText, List.all_append, hlast]
    simp [hblank]

/-- A value that ends like an image and does not start with white space is trimmed. -/
lemma isTrimmed_of_endsLikeImage {c : Char} (hfirst : value.head? = some c)
    (hblank : isBlank c = false) (himage : value.EndsLikeImage) : value.IsTrimmed := by
  obtain ⟨last, hlast, hblank', -, -⟩ := himage.exists_getLast?
  refine ⟨?_, fun d hd => ?_, fun d hd => ?_⟩
  · rintro rfl
    exact absurd hfirst (by simp)
  · rw [hfirst, Option.mem_def, Option.some.injEq] at hd
    exact hd ▸ hblank
  · rw [hlast, Option.mem_def, Option.some.injEq] at hd
    exact hd ▸ hblank'

/-- **A value that ends like an image is one token,** unless it is a list or starts with white space:
behind its first word, no descriptor is all that follows. -/
lemma tokens_eq_self {c : Char} (hfirst : value.head? = some c) (hblank : isBlank c = false)
    (himage : value.EndsLikeImage) (hcomma : ',' ∉ value) : tokens value = [⟨value, 0⟩] := by
  obtain ⟨last, hlast, hblank', hw, hx⟩ := himage.exists_getLast?
  obtain ⟨hstart, hleading, htrim⟩ := (isTrimmed_of_endsLikeImage hfirst hblank himage).trim_eq
  have hword : ∃ word, value.firstWord? = some word := by
    obtain ⟨rest, rfl⟩ := List.head?_eq_some_iff.mp hfirst
    rw [Text.firstWord?, hstart, List.takeWhile_cons_of_pos (by simpa using hblank)]
    exact ⟨_, rfl⟩
  obtain ⟨word, hword⟩ := hword
  rw [tokens, if_neg hcomma]
  simp only [htrim, hword, hleading, Text.bytes_nil]
  cases hnext : value.afterFirstWord.firstWord? with
  | none => rfl
  | some descriptor =>
      -- the value ends with what follows the descriptor
      rw [(Text.eq_of_firstWord? hword).1, (Text.eq_of_firstWord? hnext).1, ← List.append_assoc, ← List.append_assoc] at hlast
      simp only
      rw [if_neg (by simp [isBlankText_and_isDescriptor_eq_false hlast hblank' hw hx])]

/-- **A path that ends like an image is a reference as a whole.** -/
lemma ofPath_mem_ofValue {c : Char} (hfirst : value.head? = some c) (hc : c = '/' ∨ c = '.')
    (himage : value.EndsLikeImage) (hcomma : ',' ∉ value) (hquery : '?' ∉ value) :
    ofPath value 0 ∈ ofValue value := by
  have hblank : isBlank c = false := by rcases hc with rfl | rfl <;> decide
  obtain ⟨last, hlast, hblank', -, -⟩ := himage.exists_getLast?
  have hmark : ∀ {mark : Text}, mark.head? ≠ some '/' → mark.head? ≠ some '.' → mark ≠ [] →
      value.startsWith mark = false := by
    intro mark hslash hpoint hne
    obtain ⟨rest, rfl⟩ := List.head?_eq_some_iff.mp hfirst
    obtain ⟨m, mark, rfl⟩ := List.exists_cons_of_ne_nil hne
    have hmc : (m == c) = false := by
      simp only [List.head?_cons, ne_eq, Option.some.injEq] at hslash hpoint
      rcases hc with rfl | rfl
      · simpa using hslash
      · simpa using hpoint
    simp [Text.startsWith, List.isPrefixOf, hmc]
  have hdata : value.trimStart.startsWith "data:".toList = false := by
    rw [(isTrimmed_of_endsLikeImage hfirst hblank himage).trim_eq.1]
    exact hmark (by decide) (by decide) (by decide)
  have hexternal : value.isExternal = false := by
    rw [Text.isExternal, hmark (by decide) (by decide) (by decide),
      hmark (by decide) (by decide) (by decide)]
    rfl
  have hall : ∀ x ∈ value, (x ≠ '?') = true := fun x hx => by
    simpa using fun h : x = '?' => hquery (h ▸ hx)
  have hclean : value.takeWhile (· ≠ '?') = value :=
    List.takeWhile_eq_self_iff.mpr fun x hx => by simpa using hall x hx
  have hnone : value.dropWhile (· ≠ '?') = [] :=
    List.dropWhile_eq_nil_iff.mpr fun x hx => by simpa using hall x hx
  have htoken : ofToken? ⟨value, 0⟩ = some (ofPath value 0) := by
    simp only [ofToken?, hclean, hnone]
    rw [if_pos (by rw [himage.hasImageExtension, hexternal]; rfl)]
    rfl
  rw [ofValue, hdata, if_neg (by simp), tokens_eq_self hfirst hblank himage hcomma,
    List.filterMap_cons, htoken]
  exact List.mem_cons_self

end Reference

/-! ### Names -/

namespace NamesExactly

variable {site : Site} {image : Path} {value : Text}

/-- A string that names an image exactly ends like one. -/
lemma endsLikeImage (h : NamesExactly site image value) (hi : image.IsPlace)
    (hkind : image.isImage = true) : value.EndsLikeImage := by
  obtain ⟨l, n, hl, rfl, hn⟩ : ∃ l n, AreNames (l ++ [n]) ∧ image = pathOf (l ++ [n]) ∧
      isImageName n = true := by
    obtain ⟨hnames, hpath⟩ := hi
    rcases List.eq_nil_or_concat' (Listing.place image) with hnil | ⟨l, n, hplace⟩
    · rw [← hpath, hnil] at hkind
      exact absurd hkind (by decide)
    · rw [hplace] at hnames hpath
      rw [← hpath, Path.isImage_pathOf hnames] at hkind
      exact ⟨l, n, hnames, hpath.symm, hkind⟩
  obtain ⟨stem, e, rfl, -, -, he⟩ := exists_extension_of_isImageName hn
  have hends : ∀ {dir : Path} {p : Text}, (⟨p⟩ : Path).isAbsolute = false →
      pathOf (l ++ [stem ++ '.' :: e]) = dir.join ⟨p⟩ → p.EndsLikeImage := by
    intro dir p hrel hjoin
    obtain ⟨front, -, hfront⟩ := exists_join_front (hjoin ▸ isAbsolute_pathOf _) hrel
    have htext := congrArg Path.text (hjoin.trans (hfront p hrel))
    obtain ⟨behind, hp⟩ := suffix_of_text_eq hl.last.no_slash htext
    exact ⟨behind ++ stem, e, by rw [← hp]; simp, he⟩
  cases h with
  | fromPublic hrel himage =>
      obtain ⟨stem', e', hp, he'⟩ := hends hrel himage
      exact ⟨'/' :: stem', e', by rw [hp]; rfl, he'⟩
  | fromSource hrel hdir himage =>
      obtain ⟨stem', e', hp, he'⟩ := hends hrel himage
      exact ⟨'.' :: '/' :: stem', e', by rw [hp]; rfl, he'⟩

/-- An image that a string names exactly is a candidate of it. -/
lemma mem_candidates (h : NamesExactly site image value) (habs : image.isAbsolute = true)
    (hnormal : image.normal = image) : image ∈ (Reference.ofPath value 0).candidates site := by
  cases h with
  | @fromPublic p hrel himage =>
      refine List.mem_map.mpr ⟨.publicDir, by simp [Reference.conventions, Convention.all,
        Convention.style, Reference.style, Reference.isRootAbsolute, Reference.ofPath,
        Text.startsWith], ?_⟩
      have hsuffix : (Reference.ofPath ('/' :: p) 0).publicSuffix = p := rfl
      rw [Reference.candidate, Convention.resolve, hsuffix, ← himage, hnormal]
  | @fromSource p dir hrel hdir himage =>
      refine List.mem_map.mpr ⟨.relativeToFile, by simp [Reference.conventions, Convention.all,
        Convention.style, Reference.style, Reference.isRootAbsolute, Reference.ofPath,
        Text.startsWith], ?_⟩
      rw [Reference.candidate, Convention.resolve, hdir]
      simp only [Option.getD_some, Reference.ofPath]
      rw [normal_join_point (himage ▸ habs) hrel, ← himage, hnormal]

end NamesExactly

/-- **An image that a string names exactly is used.** Let a string of a source that can be read and
understood be the path of an image, from the public directory or from the directory of the source,
without a question mark or a comma. Then the image is used, and does not count as unused. -/
theorem used_of_namesExactly {parser : ParserOf} {codes images : List Path} {project file : Path}
    {config : Config} {h : Host} {source : Text} {literals : List Literal} {span : Span}
    {value : Text} {verbatim : Bool} {image : Path}
    (hfile : file ∈ codes) (hreadable : ∀ n, h.faults n .read file = none)
    (hread : h.disk.ReadsAs parser file source literals)
    (hliteral : .string span value verbatim ∈ literals)
    (himage : image ∈ images) (hkind : image.isImage = true) (habs : image.isAbsolute = true)
    (hnormal : image.normal = image) (hnames : NamesExactly ⟨project, file⟩ image value)
    (hquery : '?' ∉ value) (hcomma : ',' ∉ value) :
    image ∈ (classify parser codes images project config h).1.used ∧
      image ∉ (classify parser codes images project config h).1.unused := by
  have hplace : image.IsPlace := isPlace_iff.mpr ⟨habs, hnormal⟩
  have hr : Reference.ofPath value 0 ∈ Reference.ofValue value := by
    have hends := hnames.endsLikeImage hplace hkind
    cases hnames with
    | fromPublic _ _ => exact Reference.ofPath_mem_ofValue rfl (Or.inl rfl) hends hcomma hquery
    | fromSource _ _ _ => exact Reference.ofPath_mem_ofValue rfl (Or.inr rfl) hends hcomma hquery
  have hcovers : (indexUsages parser codes project h).1.CoversFile parser h.disk project file :=
    covers_indexUsages hfile hreadable hread
  have hknown := hcovers.covers hread _ hliteral _ hr rfl
  have hindexed : (indexUsages parser codes project h).1.names image = true :=
    UsageIndex.names_of_mem_candidates hknown (hnames.mem_candidates habs hnormal)
  have hused : image ∈ (classify parser codes images project config h).1.used :=
    mem_used_iff.mpr ⟨List.mem_map.mpr ⟨image, himage, hnormal⟩, hindexed⟩
  exact ⟨hused, not_mem_unused_of_mem_used hused⟩

/-- A name with blanks, points, other letters, and words that would be widths behind another path. -/
theorem used_of_namesExactly_spaced :
    let project : Path := ⟨"/repo".toList⟩
    let file : Path := ⟨"/repo/src/home.ts".toList⟩
    let image : Path := ⟨"/repo/src/hero 2x 640w.ü.PNG".toList⟩
    NamesExactly ⟨project, file⟩ image "./hero 2x 640w.ü.PNG".toList ∧
      image ∈ (classify Script.literals? [file] [image] project .default
        (.ofDisk (oneSource "const hero = './hero 2x 640w.ü.PNG';\n".toList))).1.used := by
  intro project file image
  have hread : (oneSource "const hero = './hero 2x 640w.ü.PNG';\n".toList).ReadsAs
      Script.literals? file "const hero = './hero 2x 640w.ü.PNG';\n".toList
      [.string ⟨13, 36⟩ "./hero 2x 640w.ü.PNG".toList true] :=
    ⟨by decide +kernel, by decide +kernel⟩
  have hnames : NamesExactly ⟨project, file⟩ image "./hero 2x 640w.ü.PNG".toList :=
    .fromSource rfl (show file.parent? = some ⟨"/repo/src".toList⟩ by decide +kernel) rfl
  refine ⟨hnames, ?_⟩
  exact (used_of_namesExactly (List.mem_singleton.mpr rfl) (fun _ => rfl) hread
    (List.mem_singleton.mpr rfl) (List.mem_singleton.mpr rfl) (by decide +kernel) rfl
    (by decide +kernel) hnames (by decide) (by decide)).1

/-- **An image whose name has a comma may be unused although a string names it exactly**: any string
with a comma is read as a list, as a source set would be. -/
theorem unused_of_comma :
    let project : Path := ⟨"/repo".toList⟩
    let file : Path := ⟨"/repo/src/home.ts".toList⟩
    let image : Path := ⟨"/repo/public/a,b.png".toList⟩
    let h : Host := .ofDisk (oneSource "const logo = '/a,b.png';\n".toList)
    h.disk.ReadsAs Script.literals? file "const logo = '/a,b.png';\n".toList
        [.string ⟨13, 23⟩ "/a,b.png".toList true] ∧
      NamesExactly ⟨project, file⟩ image "/a,b.png".toList ∧
      image.isImage = true ∧ image.normal = image ∧
      image ∉ (classify Script.literals? [file] [image] project .default h).1.used ∧
      image ∈ (classify Script.literals? [file] [image] project .default h).1.unused := by
  intro project file image h
  refine ⟨⟨?_, ?_⟩, .fromPublic rfl (by decide +kernel), ?_⟩ <;> decide +kernel

end ImageMigration
