/-
Which images are used, told without an index.

An image is used if a string in some source that can be read holds a reference that names it. The
index gathers exactly that: each reference adds what it names, each file adds what its references
add, and a file that cannot be read adds nothing. As this does not depend on the order of the files,
nor on anything but the strings in them, neither does the use of images.

* `Host.stringsAt`: the strings of a file, as they are found at some moment;
* `UsageIndex.names_addReference`, `names_indexFile`, `names_indexUsages`: what one reference, one
  file and all files add;
* `Classification.IsPartition`: the images told apart by a property, in the order of the inventory;
* `classify_isPartition`: **the images are told apart by whether some string names them**, and what
  follows for other sources.
-/
import ImageMigration.Proofs.Reference.Place
import ImageMigration.Proofs.Usage.Index

namespace ImageMigration

/-- The images, told apart by a property: each of them once, in the order of first occurrence. -/
structure Classification.IsPartition (images : List Path) (IsUsed : Path → Prop)
    (c : Classification) : Prop where
  nodup : c.used.Nodup ∧ c.unused.Nodup
  disjoint : ∀ p ∈ c.used, p ∉ c.unused
  used_order : c.used.Pairwise fun p q => images.idxOf p < images.idxOf q
  unused_order : c.unused.Pairwise fun p q => images.idxOf p < images.idxOf q
  mem_iff : ∀ p, p ∈ c.used ∨ p ∈ c.unused ↔ p ∈ images
  used_iff : ∀ p, p ∈ c.used ↔ p ∈ images ∧ IsUsed p

/-! ### The strings of a file -/

/-- The value of a string; a template has none. -/
def Literal.value? : Literal → Option Text
  | .string _ value _ => some value
  | .template _ _ => none

/-- The strings of a file, as they are found at the given moment. A file that cannot be read or
understood has none. -/
def Host.stringsAt (h : Host) (parser : ParserOf) (moment : Nat) (file : Path) : List Text :=
  match h.faults moment .read file, h.disk.readText? file with
  | none, .ok source => ((parser.literals? file source).getD []).filterMap Literal.value?
  | _, _ => []

/-- Whether a file can be read does not depend on the moment. -/
def Host.ReadsSteadily (h : Host) : Prop :=
  ∀ m n file, h.faults m .read file = h.faults n .read file

/-- Where nothing fails but for reasons of the tree, files are read steadily. -/
lemma Host.readsSteadily_ofDisk (d : Disk) : (Host.ofDisk d).ReadsSteadily := fun _ _ _ => rfl

/-- A reference names an image: as a candidate, or from the root by what the text of its path ends
with. -/
def Reference.Names (r : Reference) (site : Site) (image : Path) : Prop :=
  image ∈ r.candidates site ∨
    r.isRootAbsolute = true ∧ r.publicSuffix ≠ [] ∧ r.publicSuffix <:+ image.text

/-- Some reference in the strings of a file names an image. -/
def MentionedIn (values : List Text) (site : Site) (image : Path) : Prop :=
  ∃ value ∈ values, ∃ r ∈ Reference.ofValue value, r.Names site image

/-- Some source, read when it is its turn, mentions an image. -/
def IsMentioned (parser : ParserOf) (codes : List Path) (project : Path) (h : Host)
    (image : Path) : Prop :=
  ∃ front file back, codes = front ++ file :: back ∧
    MentionedIn (h.stringsAt parser (h.clock + front.length) file) ⟨project, file⟩ image

/-! ### What is added to an index -/

namespace UsageIndex

variable {index : UsageIndex} {site : Site} {image : Path} {r : Reference}

lemma endsWithUsage_iff {suffix : Text} :
    image.endsWithUsage suffix = true ↔ suffix ≠ [] ∧ suffix <:+ image.text := by
  rw [Path.endsWithUsage, Bool.and_eq_true, Bool.or_eq_true, Text.endsWith, Text.endsWith,
    List.isSuffixOf_iff_suffix, List.isSuffixOf_iff_suffix]
  have hjoin : suffix <:+ ((⟨"public".toList⟩ : Path).join ⟨suffix⟩).text := by
    rw [Path.join]
    split
    · exact List.suffix_rfl
    · split
      · exact List.suffix_append _ _
      · exact ⟨"public".toList ++ ['/'], by simp⟩
  constructor
  · rintro ⟨hne, hpublic | hplain⟩
    · exact ⟨by simpa using hne, List.IsSuffix.trans hjoin hpublic⟩
    · exact ⟨by simpa using hne, hplain⟩
  · rintro ⟨hne, hplain⟩
    exact ⟨by simpa using hne, Or.inr hplain⟩

lemma names_iff :
    index.names image = true ↔
      image ∈ index.candidates ∨ ∃ u ∈ index.publicUsages, u ≠ [] ∧ u <:+ image.text := by
  rw [names, Bool.or_eq_true, List.contains_iff_mem, List.any_eq_true]
  simp only [endsWithUsage_iff]

/-- **What one reference adds:** the images that it names, if it is a plain string. -/
lemma names_addReference :
    (addReference site index r).names image = true ↔
      index.names image = true ∨ r.kind = .static ∧ r.Names site image := by
  rw [addReference]
  cases hkind : r.kind with
  | dynamic => simp [names]
  | static =>
      simp only [names_iff, mem_foldl_addNew, Reference.Names, true_and]
      split
      · next habs =>
        simp only [mem_addNew, habs, true_and]
        constructor
        · rintro ((h | h) | ⟨u, hu | rfl, h⟩)
          · exact Or.inl (Or.inl h)
          · exact Or.inr (Or.inl h)
          · exact Or.inl (Or.inr ⟨u, hu, h⟩)
          · exact Or.inr (Or.inr h)
        · rintro ((h | ⟨u, hu, h⟩) | h | h)
          · exact Or.inl (Or.inl h)
          · exact Or.inr ⟨u, Or.inl hu, h⟩
          · exact Or.inl (Or.inr h)
          · exact Or.inr ⟨_, Or.inr rfl, h⟩
      · next habs =>
        simp only [habs, Bool.false_eq_true, false_and, or_false]
        exact or_right_comm

lemma names_foldl_addReference {references : List Reference} :
    (references.foldl (addReference site) index).names image = true ↔
      index.names image = true ∨
        ∃ r ∈ references, r.kind = .static ∧ r.Names site image := by
  induction references generalizing index with
  | nil => simp
  | cons r references ih => simp [ih, names_addReference, or_assoc]

end UsageIndex

section Files

variable {parser : ParserOf} {project image file : Path} {codes : List Path} {h h' : Host}

/-- Only strings have references that are resolved. -/
lemma exists_static_iff {literals : List Literal} {site : Site} :
    (∃ r ∈ literals.flatMap Literal.references, r.kind = .static ∧ r.Names site image) ↔
      MentionedIn (literals.filterMap Literal.value?) site image := by
  constructor
  · rintro ⟨r, hr, hkind, hnames⟩
    obtain ⟨l, hl, hr⟩ := List.mem_flatMap.mp hr
    cases l with
    | string span value verbatim =>
        exact ⟨value, List.mem_filterMap.mpr ⟨_, hl, rfl⟩, r, hr, hnames⟩
    | template span chunks =>
        obtain ⟨chunk, -, rfl⟩ := List.mem_map.mp hr
        exact absurd hkind (by simp)
  · rintro ⟨value, hvalue, r, hr, hnames⟩
    obtain ⟨l, hl, hsome⟩ := List.mem_filterMap.mp hvalue
    cases l with
    | string span v verbatim =>
        obtain rfl := Option.some.inj hsome
        exact ⟨r, List.mem_flatMap.mpr ⟨_, hl, hr⟩, Reference.kind_of_mem_ofValue hr, hnames⟩
    | template span chunks => exact absurd hsome (by simp [Literal.value?])

/-- **What one file adds:** the images that its strings mention. Then it is the turn of the next. -/
lemma names_indexFile (parser : ParserOf) (project image : Path) (state : UsageIndex × Host)
    (file : Path) :
    ((indexFile parser project state file).1.names image = true ↔
      state.1.names image = true ∨
        MentionedIn (state.2.stringsAt parser state.2.clock file) ⟨project, file⟩ image) ∧
    (indexFile parser project state file).2.disk = state.2.disk ∧
    (indexFile parser project state file).2.faults = state.2.faults ∧
    (indexFile parser project state file).2.clock = state.2.clock + 1 := by
  obtain ⟨index, h⟩ := state
  have hfailed : ∀ path, (index.addFailure path).names image = true ↔
      index.names image = true ∨ MentionedIn [] ⟨project, file⟩ image := by
    simp [UsageIndex.names, UsageIndex.addFailure, MentionedIn]
  simp only [indexFile, Host.look, Host.attempt, Host.stringsAt]
  cases hfault : h.faults h.clock .read file with
  | some e => exact ⟨hfailed _, rfl, rfl, rfl⟩
  | none =>
      cases hread : h.disk.readText? file with
      | error e => exact ⟨hfailed _, rfl, rfl, rfl⟩
      | ok source =>
          simp only [Except.map]
          cases hparse : parser.literals? file source with
          | none => exact ⟨hfailed _, rfl, rfl, rfl⟩
          | some literals =>
              refine ⟨?_, rfl, rfl, rfl⟩
              rw [UsageIndex.names_foldl_addReference, exists_static_iff]
              rfl

/-- The strings of a file depend on the tree and on what is bound to fail. -/
lemma stringsAt_congr (hd : h'.disk = h.disk) (hf : h'.faults = h.faults) (n : Nat) (file : Path) :
    h'.stringsAt parser n file = h.stringsAt parser n file := by
  rw [Host.stringsAt, Host.stringsAt, hd, hf]

/-- The first of some sources mentions an image, or a later one does when it is its turn. -/
lemma isMentioned_cons (hd : h'.disk = h.disk) (hf : h'.faults = h.faults)
    (hc : h'.clock = h.clock + 1) :
    IsMentioned parser (file :: codes) project h image ↔
      MentionedIn (h.stringsAt parser h.clock file) ⟨project, file⟩ image ∨
        IsMentioned parser codes project h' image := by
  constructor
  · rintro ⟨front, f, back, hcodes, hmentioned⟩
    cases front with
    | nil =>
        rw [List.nil_append, List.cons.injEq] at hcodes
        obtain ⟨rfl, rfl⟩ := hcodes
        exact Or.inl hmentioned
    | cons g front =>
        rw [List.cons_append, List.cons.injEq] at hcodes
        obtain ⟨rfl, rfl⟩ := hcodes
        refine Or.inr ⟨front, f, back, rfl, ?_⟩
        rw [stringsAt_congr hd hf, hc, Nat.add_assoc, Nat.add_comm 1]
        exact hmentioned
  · rintro (hfirst | ⟨front, f, back, rfl, hmentioned⟩)
    · exact ⟨[], file, codes, rfl, hfirst⟩
    · refine ⟨file :: front, f, back, rfl, ?_⟩
      rw [stringsAt_congr hd hf, hc, Nat.add_assoc, Nat.add_comm 1] at hmentioned
      exact hmentioned

lemma names_foldl_indexFile (state : UsageIndex × Host) :
    (codes.foldl (indexFile parser project) state).1.names image = true ↔
      state.1.names image = true ∨ IsMentioned parser codes project state.2 image := by
  induction codes generalizing state with
  | nil => simp [IsMentioned]
  | cons file codes ih =>
      obtain ⟨hfile, hd, hf, hc⟩ := names_indexFile parser project image state file
      rw [List.foldl_cons, ih, hfile, isMentioned_cons hd hf hc, or_assoc]

/-- **What all files add:** an image is named if some source mentions it. -/
lemma names_indexUsages :
    (indexUsages parser codes project h).1.names image = true ↔
      IsMentioned parser codes project h image := by
  rw [indexUsages, names_foldl_indexFile]
  simp [UsageIndex.names, UsageIndex.empty]

end Files

/-! ### Classifications -/

section Order

variable {α : Type} [DecidableEq α]

/-- A list without repetitions keeps the order of first occurrence. -/
lemma pairwise_distinct (items : List α) :
    (distinct items).Pairwise fun a b => items.idxOf a < items.idxOf b := by
  induction items using List.reverseRecOn with
  | nil => exact List.Pairwise.nil
  | append_singleton items a ih =>
      have hold : (distinct items).Pairwise fun x y =>
          (items ++ [a]).idxOf x < (items ++ [a]).idxOf y := by
        refine ih.imp_of_mem ?_
        intro x y hx hy hxy
        rw [List.idxOf_append_of_mem (mem_distinct.mp hx),
          List.idxOf_append_of_mem (mem_distinct.mp hy)]
        exact hxy
      have hstep : distinct (items ++ [a]) = addNew (distinct items) a := by
        simp [distinct]
      rw [hstep, addNew]
      split
      · exact hold
      · next hnew =>
        have ha : a ∉ items := fun h => hnew (List.contains_iff_mem.mpr (mem_distinct.mpr h))
        refine List.pairwise_append.mpr ⟨hold, List.pairwise_singleton _ _, fun x hx y hy => ?_⟩
        rw [List.mem_singleton.mp hy, List.idxOf_append_of_mem (mem_distinct.mp hx),
          List.idxOf_append_of_notMem ha]
        exact Nat.lt_add_right _ (List.idxOf_lt_length_of_mem (mem_distinct.mp hx))

end Order

namespace Classification

variable {images : List Path} {index index' : UsageIndex} {p : Path}

/-- Images only move from the unused to the used ones. -/
def MovesTo (c c' : Classification) : Prop :=
  List.Sublist c.used c'.used ∧ List.Sublist c'.unused c.unused

/-- The same images are used, and the same are unused. -/
def SameUse (c c' : Classification) : Prop := c'.used = c.used ∧ c'.unused = c.unused

/-- An index tells the images apart by what it names. -/
lemma isPartition_ofIndex (index : UsageIndex) (images : List Path) :
    IsPartition images (fun p => index.names p = true) (.ofIndex index (distinct images)) where
  nodup := ⟨(nodup_distinct images).filter _, (nodup_distinct images).filter _⟩
  disjoint p hp hq := by
    rw [ofIndex, List.mem_filter] at hp hq
    have hno := hq.2
    rw [hp.2] at hno
    exact absurd hno (by simp)
  used_order := (pairwise_distinct images).filter _
  unused_order := (pairwise_distinct images).filter _
  mem_iff p := by
    rw [ofIndex, List.mem_filter, List.mem_filter, mem_distinct, Bool.not_eq_true']
    cases index.names p <;> simp
  used_iff p := by rw [ofIndex, List.mem_filter, mem_distinct]

lemma movesTo_ofIndex (h : ∀ p, index.names p = true → index'.names p = true) :
    MovesTo (.ofIndex index images) (.ofIndex index' images) := by
  refine ⟨List.monotone_filter_right _ h, List.monotone_filter_right _ fun p hp => ?_⟩
  by_contra hno
  simp only [Bool.not_eq_true', Bool.not_eq_false] at hp hno
  rw [h p hno] at hp
  exact absurd hp (by simp)

lemma sameUse_ofIndex (h : ∀ p, index'.names p = true ↔ index.names p = true) :
    SameUse (.ofIndex index images) (.ofIndex index' images) := by
  have hsame : ∀ p, index'.names p = index.names p := fun p => Bool.eq_iff_iff.mpr (h p)
  constructor
  · exact List.filter_congr fun p _ => hsame p
  · exact List.filter_congr fun p _ => by rw [hsame p]

end Classification

section Classify

variable {parser : ParserOf} {codes codes' : List Path} {project image : Path} {h h' : Host}

/-- Where files are read steadily, the moment of reading does not matter. -/
lemma isMentioned_iff (hs : h.ReadsSteadily) :
    IsMentioned parser codes project h image ↔
      ∃ file ∈ codes, MentionedIn (h.stringsAt parser 0 file) ⟨project, file⟩ image := by
  have hany : ∀ n file, h.stringsAt parser n file = h.stringsAt parser 0 file := fun n file => by
    rw [Host.stringsAt, Host.stringsAt, hs n 0 file]
  constructor
  · rintro ⟨front, file, back, rfl, hmentioned⟩
    rw [hany] at hmentioned
    exact ⟨file, by simp, hmentioned⟩
  · rintro ⟨file, hfile, hmentioned⟩
    obtain ⟨front, back, rfl⟩ := List.append_of_mem hfile
    exact ⟨front, file, back, rfl, by rwa [hany]⟩

lemma MentionedIn.mono {values values' : List Text} {site : Site} (hsub : values ⊆ values')
    (hm : MentionedIn values site image) : MentionedIn values' site image := by
  obtain ⟨value, hvalue, hr⟩ := hm
  exact ⟨value, hsub hvalue, hr⟩

/-- With sources that mention more images, images only move from the unused to the used ones. -/
lemma movesTo_classify {images : List Path} {config config' : Config}
    (hmore : ∀ p, IsMentioned parser codes project h p → IsMentioned parser codes' project h' p) :
    (classify parser codes images project config h).1.MovesTo
      (classify parser codes' images project config' h').1 := by
  rw [classify_fst, classify_fst]
  exact Classification.movesTo_ofIndex fun p hp =>
    names_indexUsages.mpr (hmore p (names_indexUsages.mp hp))

/-- With sources that mention the same images, the same images are used. -/
lemma sameUse_classify {images : List Path} {config config' : Config}
    (hsame : ∀ p, IsMentioned parser codes' project h' p ↔ IsMentioned parser codes project h p) :
    (classify parser codes images project config h).1.SameUse
      (classify parser codes' images project config' h').1 := by
  rw [classify_fst, classify_fst]
  exact Classification.sameUse_ofIndex fun p => by
    rw [names_indexUsages, names_indexUsages, hsame]

/-- **The images are told apart by whether some string names them:** each image of the inventory is
used or unused, in the order of the inventory, and it is used if a source that can be read has a
string with a reference that names it. So nothing changes when the sources are read in another order
or several times, or when their strings stay the same, whatever becomes of their templates; and with
more sources or more strings, images only move from the unused to the used ones. -/
theorem classify_isPartition (parser : ParserOf) (codes images : List Path) (project : Path)
    (config : Config) (h : Host) :
    let c : Classification := (classify parser codes images project config h).1
    c.IsPartition (images.map Path.normal) (IsMentioned parser codes project h) ∧
      (h.ReadsSteadily → ∀ codes' config',
        let c' : Classification := (classify parser codes' images project config' h).1
        ((∀ file, file ∈ codes' ↔ file ∈ codes) → c.SameUse c') ∧ (codes ⊆ codes' → c.MovesTo c')) ∧
      (h.ReadsSteadily → ∀ h' config', h'.ReadsSteadily →
        let c' : Classification := (classify parser codes images project config' h').1
        ((∀ file ∈ codes, h'.stringsAt parser 0 file = h.stringsAt parser 0 file) → c.SameUse c') ∧
        ((∀ file ∈ codes, h.stringsAt parser 0 file ⊆ h'.stringsAt parser 0 file) →
          c.MovesTo c')) := by
  intro c
  refine ⟨?_, fun hs codes' config' => ⟨fun hsame => ?_, fun hsub => ?_⟩,
    fun hs h' config' hs' => ⟨fun hsame => ?_, fun hsub => ?_⟩⟩
  · have hnames : (fun p => (indexUsages parser codes project h).1.names p = true)
        = IsMentioned parser codes project h := funext fun p => propext names_indexUsages
    rw [← hnames]
    exact Classification.isPartition_ofIndex _ _
  · refine sameUse_classify fun p => ?_
    rw [isMentioned_iff hs, isMentioned_iff hs]
    simp only [hsame]
  · refine movesTo_classify fun p => ?_
    rw [isMentioned_iff hs, isMentioned_iff hs]
    rintro ⟨file, hfile, hmentioned⟩
    exact ⟨file, hsub hfile, hmentioned⟩
  · refine sameUse_classify fun p => ?_
    rw [isMentioned_iff hs, isMentioned_iff hs']
    refine exists_congr fun file => and_congr_right fun hfile => ?_
    rw [hsame file hfile]
  · refine movesTo_classify fun p => ?_
    rw [isMentioned_iff hs, isMentioned_iff hs']
    rintro ⟨file, hfile, hmentioned⟩
    exact ⟨file, hfile, hmentioned.mono (hsub file hfile)⟩

end Classify

/-! ### A project with a template -/

/-- A project with two sources, one of which refers to an image. The other one is given. -/
def besideHome (text : Text) : Disk :=
  .ofPaths ["/repo".toList, "/repo/src".toList]
    [("/repo/src/home.ts".toList, Text.toUtf8 "const logo = '/img/logo.png';\n".toList),
     ("/repo/src/side.ts".toList, text.toUtf8)]

/-- A template with the path of an image changes nothing, and neither does the order of sources. -/
theorem classify_isPartition_beside_template :
    let home : Path := ⟨"/repo/src/home.ts".toList⟩
    let side : Path := ⟨"/repo/src/side.ts".toList⟩
    let images : List Path := [⟨"/repo/./b.png".toList⟩, ⟨"/repo/public/img/logo.png".toList⟩,
      ⟨"/repo/b.png".toList⟩]
    let plain : Host := .ofDisk (besideHome "let b = 1;\n".toList)
    let dynamic : Host := .ofDisk (besideHome "let b = \x60/b.png\x60;\n".toList)
    let c := (classify Script.literals? [home, side] images ⟨"/repo".toList⟩ .default plain).1
    c.used = [⟨"/repo/public/img/logo.png".toList⟩] ∧ c.unused = [⟨"/repo/b.png".toList⟩] ∧
      c.SameUse
        (classify Script.literals? [side, home, side] images ⟨"/repo".toList⟩ .default plain).1 ∧
      c.SameUse
        (classify Script.literals? [home, side] images ⟨"/repo".toList⟩ .default dynamic).1 := by
  intro home side images plain dynamic c
  obtain ⟨-, hcodes, hstrings⟩ := classify_isPartition Script.literals? [home, side] images
    ⟨"/repo".toList⟩ .default plain
  have hplain : plain.ReadsSteadily := Host.readsSteadily_ofDisk _
  have hdynamic : dynamic.ReadsSteadily := Host.readsSteadily_ofDisk _
  have hmem : ∀ a b file : Path, file ∈ [b, a, b] ↔ file ∈ [a, b] := by
    intro a b file
    simp only [List.mem_cons, List.not_mem_nil, or_false]
    tauto
  have hsame : ∀ file ∈ [home, side], dynamic.stringsAt Script.literals? 0 file
      = plain.stringsAt Script.literals? 0 file := by decide +kernel
  exact ⟨by decide +kernel, by decide +kernel,
    (hcodes hplain [side, home, side] .default).1 (hmem home side),
    (hstrings hplain dynamic .default hdynamic).1 hsame⟩

end ImageMigration
