/-
Where a run may work.

A search does not enter ignored directories, and passes over images with reserved names. The new
image of an image lies beside it and has an extension that no reserved name has. So neither what a
search finds nor what is made from it lies in an ignored directory or has a reserved name.

* `Config.Searches`: the places that a search can get to; `Inventory.searches_of_mem`: what it finds
  is at such places;
* `isReservedName_eq_false`: names whose ends are not reserved;
* `Path.MayChange`: a place of the project without a reserved name;
* `mayChange_of_holdsFile`, `mayChange_target`: **images, sources and new images are at such places.**
-/
import ImageMigration.Proofs.Conversion.Batch

namespace ImageMigration

open Disk (pathOf)

/-! ### Places that are searched -/

/-- The search of a directory may come across the place: it lies below, and no directory on the way
to it is ignored. -/
def Config.Searches (config : Config) (root l : Location) : Prop :=
  ∃ names name, l = root ++ names ++ [name] ∧ ∀ n ∈ names, config.ignores n = false

/-- The last name of a place does not matter. -/
lemma Config.Searches.concat {config : Config} {root l : Location} {name : Text}
    (h : config.Searches root (l ++ [name])) (name' : Text) :
    config.Searches root (l ++ [name']) := by
  obtain ⟨names, last, heq, hsearched⟩ := h
  obtain ⟨rfl, -⟩ := List.append_inj' heq rfl
  exact ⟨names, name', rfl, hsearched⟩

/-- A file that names lead to is at a place that is searched. -/
lemma Disk.LeadsToFile.searches {d : Disk} {config : Config} {l : Location} {names : List Text}
    (h : d.LeadsToFile config l names) : config.Searches l (l ++ names) := by
  induction h with
  | @file l name => exact ⟨[], name, by simp, fun n hn => absurd hn (by simp)⟩
  | @through l name names _ _ _ hsearched _ ih =>
      obtain ⟨front, last, hplace, hall⟩ := ih
      refine ⟨name :: front, last, by simpa using hplace, fun n hn => ?_⟩
      rcases List.mem_cons.mp hn with rfl | hn
      · exact hsearched
      · exact hall n hn

/-- **What a search finds is at places that are searched.** -/
lemma Inventory.searches_of_mem {h : Host} {config : Config} {target p : Path}
    {inventory : Inventory} (hd : h.disk.IsTree) (ht : target.IsPlace)
    (hs : (Inventory.scan h target config).1 = .ok inventory)
    (hp : p ∈ inventory.images ∨ p ∈ inventory.codes) :
    config.Searches (Listing.place target) (Listing.place p) := by
  rw [scan_eq_ok hs ht, ofVisits] at hp
  have hvisit : .file p ∈ h.disk.visits config target :=
    hp.elim (fun hi => (mem_filesOf.mp hi).1) fun hc => (mem_filesOf.mp hc).1
  rw [← ht.2, Disk.visits] at hvisit
  obtain ⟨names, rfl, hreaches⟩ := Disk.exists_reaches_of_isTree hd ht.1 hvisit
  rw [place_pathOf (ht.1.append hreaches.leads.areNames)]
  exact hreaches.leads.searches

/-! ### Reserved names -/

/-- A reserved name has one of the reserved endings, in any letter case. -/
lemma exists_ending_of_isReservedName {name : Text} (h : isReservedName name = true) :
    ∃ ending ∈ reservedEndings, ending <:+ name.map foldCase := by
  rw [isReservedName, List.any_eq_true] at h
  obtain ⟨beginning, -, h⟩ := h
  rw [Bool.and_eq_true, hasReservedEnding, List.any_eq_true] at h
  obtain ⟨-, ending, hmem, h⟩ := h
  rw [Bool.and_eq_true, List.isSuffixOf_iff_suffix] at h
  exact ⟨ending, hmem, h.1.trans (List.drop_suffix _ _)⟩

/-- A name with another ending is not reserved. -/
lemma isReservedName_eq_false {stem e : Text}
    (h : ∀ ending ∈ reservedEndings, ¬ ending <:+ ('.' :: e).map foldCase ∧
      ¬ ('.' :: e).map foldCase <:+ ending) : isReservedName (stem ++ '.' :: e) = false := by
  by_contra hreserved
  obtain ⟨ending, hmem, hsuffix⟩ := exists_ending_of_isReservedName (by simpa using hreserved)
  rw [List.map_append] at hsuffix
  rcases List.suffix_or_suffix_of_suffix hsuffix (List.suffix_append _ _) with hleft | hright
  · exact (h ending hmem).1 hleft
  · exact (h ending hmem).2 hright

lemma not_isReservedName_of_isCodeName {name : Text} (h : isCodeName name = true) :
    isReservedName name = false := by
  obtain ⟨stem, e, rfl, -, -, he⟩ := exists_extension_of_isCodeName h
  have hmem : e ∈ codeExtensions := List.contains_iff_mem.mp he
  have hall : ∀ e ∈ codeExtensions, ∀ ending ∈ reservedEndings,
      ¬ ending <:+ ('.' :: e).map foldCase ∧ ¬ ('.' :: e).map foldCase <:+ ending := by decide
  exact isReservedName_eq_false (hall e hmem)

lemma not_isReservedName_of_isImageName {name : Text} (h : isImageName name = true) :
    isReservedName name = false := by
  rw [isImageName, Bool.and_eq_true, Bool.not_eq_true'] at h
  exact h.2

lemma not_isReservedName_webp (stem : Text) :
    isReservedName (stem ++ '.' :: "webp".toList) = false :=
  isReservedName_eq_false (by decide)

/-- Whether a path has a reserved name. -/
def Path.isReserved (p : Path) : Bool := p.fileName?.any isReservedName

lemma Path.isReserved_pathOf {l : Location} {n : Text} (h : AreNames (l ++ [n])) :
    (pathOf (l ++ [n])).isReserved = isReservedName n := by
  rw [isReserved, fileName?_pathOf h]
  rfl

/-- Images and sources have no reserved names. -/
lemma Path.not_isReserved {p : Path} (h : p.isImage = true ∨ p.isCode = true) :
    p.isReserved = false := by
  rw [isImage_eq, isCode] at h
  rw [isReserved]
  cases hname : p.fileName? with
  | none => rfl
  | some n =>
      rw [hname] at h
      exact h.elim not_isReservedName_of_isImageName not_isReservedName_of_isCodeName

/-! ### Files of a run -/

/-- A place of the project that is searched, and has no reserved name. -/
structure Path.MayChange (p : Path) (config : Config) (root : Path) : Prop where
  isPlace : p.IsPlace
  searched : config.Searches (Listing.place root) (Listing.place p)
  not_reserved : p.isReserved = false

section Files

variable {config : Config} {root p : Path} {d : Disk}

/-- Images and sources stay where they are. -/
lemma mayChange_of_holdsFile (hf : d.HoldsFile p) (hkind : p.isImage = true ∨ p.isCode = true)
    (hsearched : config.Searches (Listing.place root) (Listing.place p)) :
    p.MayChange config root :=
  ⟨hf.isPlace, hsearched, Path.not_isReserved hkind⟩

/-- The new image of an image lies beside it. -/
lemma mayChange_target {c : Converter} (hwebp : c.extension = "webp".toList) (hf : d.HoldsFile p)
    (himage : p.isImage = true) (hnew : IsNewImage c.extension (c.target p))
    (hsearched : config.Searches (Listing.place root) (Listing.place p)) :
    (c.target p).MayChange config root := by
  obtain ⟨l, stem, e, hnames, rfl, hdot, hne⟩ := hf.exists_stem himage
  have he : IsNewExtension c.extension := by
    rw [hwebp]
    exact isNewExtension_webp
  have htarget := withExtension_pathOf hnames hdot hne he.ne_nil
  rw [← Converter.target] at htarget
  by_cases hpoint : stem = ['.']
  · -- the way to the directory above has no extension
    rw [if_pos hpoint] at htarget
    have hnone : (pathOf (l ++ [['.', '.']])).extension? = none := by
      rw [Path.extension?, fileName?_pathOf_dots]
      rfl
    have hextension := hnew.extension
    rw [htarget, hnone] at hextension
    exact absurd hextension (Option.some_ne_none _).symm
  · rw [if_neg hpoint] at htarget
    have hnames' : AreNames (l ++ [stem ++ '.' :: c.extension]) :=
      hnames.left.concat (hnames.last.set_extension hne he.ne_nil he.no_slash)
    rw [place_pathOf hnames] at hsearched
    refine ⟨hnew.isPlace, ?_, ?_⟩
    · rw [htarget, place_pathOf hnames']
      exact hsearched.concat _
    · rw [htarget, Path.isReserved_pathOf hnames', hwebp, not_isReservedName_webp]

end Files

end ImageMigration
