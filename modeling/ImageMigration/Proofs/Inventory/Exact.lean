/-
What a search returns hangs on the tree alone.

The files that a search is to find are told without the search: they stand at the end of ways that
lead down through directories that can be listed and are not ignored. Whatever links the tree has
and in whatever order directories list their entries, these files are found, and no others.

* `Disk.IsEligible`: the files that a search is to find;
* `Disk.mem_visitsFrom_iff`: a search comes across them and nothing else;
* `Inventory.IsExact`, `Inventory.IsExact.eq`: they are put in order in one way only;
* `Disk.Reordered`: the same entries, listed in another order;
* `Inventory.scan_isExact`: **a search returns the files that it is to find, whatever the order of
  listings.**
-/
import ImageMigration.Proofs.Inventory.Complete
import ImageMigration.Proofs.Path.Order

namespace ImageMigration

open Disk (pathOf)

/-- A file that the search of a directory is to find. Links are followed to the directory where the
search starts, and nowhere else. -/
inductive Disk.IsEligible (d : Disk) (config : Config) (root : Path) : Path → Prop where
  /-- a path that leads up from a link may be one of a file once it is in normal form -/
  | self {l : Location} {bytes : Bytes} {perms : Permissions}
      (hfile : d.find? false root = .ok (l, ⟨.file bytes, perms⟩)) : d.IsEligible config root root
  | below {place : Location} {names : List Text}
      (hreaches : d.Reaches config (Listing.place root) place 0 names) :
      d.IsEligible config root (pathOf (Listing.place root ++ names))

namespace Disk

variable {d d' : Disk} {config : Config} {root p : Path} {follow : Bool} {l : Location} {n : Node}

/-! ### Searches -/

/-- A search of a directory, which may be reached through links. -/
lemma visitsFrom_of_isDir (h : d.isDir root = true) :
    d.visitsFrom config root = d.visits config root := if_pos h

/-- A search where no directory is comes across a file at most, and that stands there itself. -/
lemma mem_visitsFrom_of_not_isDir (h : d.isDir root = false) :
    .file p ∈ d.visitsFrom config root ↔
      p = root ∧ ∃ l bytes perms, d.find? false root = .ok (l, ⟨.file bytes, perms⟩) := by
  rw [visitsFrom, if_neg (by simp [h])]
  split
  · next l bytes perms hfile =>
    rw [List.mem_singleton, Visit.file.injEq]
    exact ⟨fun hp => ⟨hp, l, bytes, perms, hfile⟩, And.left⟩
  · next hno =>
    refine ⟨fun hp => absurd hp (by simp), ?_⟩
    rintro ⟨-, l, bytes, perms, hfile⟩
    exact absurd hfile (hno l bytes perms)
  · next hno =>
    refine ⟨fun hp => absurd hp (by simp), ?_⟩
    rintro ⟨-, l, bytes, perms, hfile⟩
    exact absurd hfile (hno l bytes perms)

lemma isDir_of_list? {entries : List (Text × Node)} (h : d.list? p = .ok entries) :
    d.isDir p = true := by
  obtain ⟨l, n, hf, hdir, -, -⟩ := list?_eq_ok_iff.mp h
  rw [isDir, hf]
  exact hdir

/-- A directory where a search reaches anything can be listed. -/
lemma Reaches.isDir {place : Location} {names : List Text}
    (h : d.Reaches config (Listing.place root) place 0 names) (hroot : root.IsPlace) :
    d.isDir root = true := by
  obtain ⟨entries, hlist⟩ := h.listed 0 (List.length_pos_of_ne_nil h.leads.ne_nil)
  rw [List.take_zero, List.append_nil, hroot.2] at hlist
  exact isDir_of_list? hlist

/-- **A search comes across the files that it is to find, and no others.** -/
lemma mem_visitsFrom_iff (hd : d.IsNamed) (hroot : root.IsPlace) :
    .file p ∈ d.visitsFrom config root ↔ d.IsEligible config root p := by
  cases hdir : d.isDir root with
  | true =>
      rw [visitsFrom_of_isDir hdir]
      constructor
      · intro hp
        rw [← hroot.2] at hp
        obtain ⟨place, names, rfl, hreaches⟩ := exists_reaches hd hroot.1 hp
        exact .below hreaches
      · rintro (hfile | hreaches)
        · -- a file is no link, so the directory would stand at the same place
          have hfollow := find?_follow hfile rfl
          rw [isDir, hfollow] at hdir
          exact absurd hdir (by simp [Node.isDir])
        · have hvisit := hreaches.mem_visits hroot.1
          rwa [hroot.2] at hvisit
  | false =>
      rw [mem_visitsFrom_of_not_isDir hdir]
      constructor
      · rintro ⟨rfl, l, bytes, perms, hfile⟩
        exact .self hfile
      · rintro (hfile | hreaches)
        · exact ⟨rfl, _, _, _, hfile⟩
        · rw [hreaches.isDir hroot] at hdir
          exact absurd hdir (by simp)

/-- No file is come across twice, wherever the search starts. -/
lemma nodup_files_visitsFrom (hd : d.IsNamed) (hroot : root.IsPlace) :
    ((d.visitsFrom config root).filterMap Visit.file?).Nodup := by
  rw [visitsFrom]
  split
  · rw [visits, ← hroot.2]
    exact nodup_files_visitsFor hd hroot.1
  · split
    · exact List.nodup_singleton _
    · exact List.nodup_nil
    · exact List.nodup_nil

/-- What is to be found has an absolute path in normal form. -/
lemma IsEligible.isPlace (h : d.IsEligible config root p) (hroot : root.IsPlace) : p.IsPlace := by
  cases h with
  | self => exact hroot
  | below hreaches => exact isPlace_pathOf (hroot.1.append hreaches.leads.areNames)

/-! ### Orders of listings -/

/-- The same entries, which directories list in another order. -/
structure Reordered (d d' : Disk) : Prop where
  workingDir : d'.workingDir = d.workingDir
  nodes : d'.nodes.Perm d.nodes

lemma IsNamed.node?_eq_some_iff (hd : d.IsNamed) (hl : l ≠ []) :
    d.node? l = some n ↔ (l, n) ∈ d.nodes :=
  ⟨mem_of_node? hl, hd.node?_of_mem hl⟩

namespace Reordered

lemma symm (h : Reordered d d') : Reordered d' d := ⟨h.workingDir.symm, h.nodes.symm⟩

variable (h : Reordered d d') (hd : d.IsNamed)

include h

lemma absoluteDir_eq (p : Path) : d'.absoluteDir p = d.absoluteDir p := by
  rw [absoluteDir, absoluteDir, h.workingDir]

include hd

lemma isNamed : d'.IsNamed :=
  ⟨((h.nodes.map _).nodup_iff).mpr hd.distinct,
    fun entry hmem => hd.names entry (h.nodes.mem_iff.mp hmem)⟩

/-- The same entry stands at every place. -/
lemma node?_eq (l : Location) : d'.node? l = d.node? l := by
  by_cases hl : l = []
  · rw [hl, node?_nil, node?_nil]
  · refine Option.ext fun n => ?_
    rw [(h.isNamed hd).node?_eq_some_iff hl, hd.node?_eq_some_iff hl]
    exact h.nodes.mem_iff

lemma filesDiffer : FilesDiffer d d' := ⟨h.workingDir, fun l => Or.inl (h.node?_eq hd l)⟩

lemma find?_eq_ok (hf : d.find? follow p = .ok (l, n)) : d'.find? follow p = .ok (l, n) := by
  obtain ⟨hl, hn⟩ := find?_eq_ok_iff.mp hf
  exact find?_eq_ok_iff.mpr ⟨(h.filesDiffer hd).resolve?_eq hl, (h.node?_eq hd l).trans hn⟩

lemma isDir_of_isDir (hdir : d.isDir p = true) : d'.isDir p = true :=
  isDir_of_find? (fun _ _ _ hf => h.find?_eq_ok hd hf) hdir

/-- A directory that can be listed can be listed in the other order as well. -/
lemma exists_list? (hlist : ∃ entries, d.list? p = .ok entries) :
    ∃ entries, d'.list? p = .ok entries :=
  exists_list?_of_find? (fun _ _ _ hf => h.find?_eq_ok hd hf) hlist

lemma leadsToFile {names : List Text} (hleads : d.LeadsToFile config l names) :
    d'.LeadsToFile config l names := by
  refine hleads.congr (fun l n _ hn => (h.node?_eq hd l).trans hn) ?_
  rw [h.node?_eq hd]
  exact hleads.exists_file

/-- **What is to be found does not hang on the order of listings.** -/
lemma isEligible (he : d.IsEligible config root p) : d'.IsEligible config root p := by
  cases he with
  | self hfile => exact .self (h.find?_eq_ok hd hfile)
  | below hreaches =>
      exact .below ⟨(h.filesDiffer hd).resolve?_eq hreaches.found,
        h.leadsToFile hd hreaches.leads, hreaches.depth_le,
        fun k hk => h.exists_list? hd (hreaches.listed k hk)⟩

end Reordered

end Disk

/-! ### Inventories -/

namespace Inventory

/-- An inventory of the files that the search of a directory is to find, in the order of paths. -/
structure IsExact (d : Disk) (config : Config) (root : Path) (inventory : Inventory) : Prop where
  images : ∀ p, p ∈ inventory.images ↔ d.IsEligible config root p ∧ p.isImage = true
  codes : ∀ p, p ∈ inventory.codes ↔ d.IsEligible config root p ∧ p.isCode = true
  increasing_images : Path.IsIncreasing inventory.images
  increasing_codes : Path.IsIncreasing inventory.codes
  normal : ∀ p, p ∈ inventory.images ∨ p ∈ inventory.codes → p.isAbsolute = true ∧ p.normal = p
  disjoint : ∀ p ∈ inventory.images, p ∉ inventory.codes

variable {d d' : Disk} {config : Config} {root : Path} {inventory inventory' : Inventory}

/-- **There is one exact inventory only.** -/
lemma IsExact.eq (h : IsExact d config root inventory) (h' : IsExact d config root inventory') :
    inventory = inventory' := by
  have himages : inventory.images = inventory'.images :=
    h.increasing_images.eq_of_mem_iff h'.increasing_images
      fun p => (h.images p).trans (h'.images p).symm
  have hcodes : inventory.codes = inventory'.codes :=
    h.increasing_codes.eq_of_mem_iff h'.increasing_codes fun p => (h.codes p).trans (h'.codes p).symm
  cases inventory
  cases inventory'
  simp_all

/-- An exact inventory stays exact when directories list their entries in another order. -/
lemma IsExact.reordered (h : IsExact d config root inventory) (hd : d.IsNamed)
    (horder : d.Reordered d') : IsExact d' config root inventory := by
  have heligible : ∀ p, d.IsEligible config root p ↔ d'.IsEligible config root p := fun p =>
    ⟨horder.isEligible hd, horder.symm.isEligible (horder.isNamed hd)⟩
  exact ⟨fun p => by rw [h.images, heligible], fun p => by rw [h.codes, heligible],
    h.increasing_images, h.increasing_codes, h.normal, h.disjoint⟩

/-- The inventory of what a search comes across is exact. -/
lemma isExact_ofVisits (config : Config) (hd : d.IsNamed) (hroot : root.IsPlace) :
    IsExact d config root (ofVisits (d.visitsFrom config root)) := by
  have hmem : ∀ keep p, p ∈ filesOf keep (d.visitsFrom config root) ↔
      d.IsEligible config root p ∧ keep p = true := fun keep p => by
    rw [mem_filesOf, Disk.mem_visitsFrom_iff hd hroot]
  have hincreasing : ∀ keep, Path.IsIncreasing (filesOf keep (d.visitsFrom config root)) := by
    intro keep
    refine Path.isIncreasing_sort (fun p hp => ?_)
      ((Disk.nodup_files_visitsFrom hd hroot).filter _)
    have hvisit := Disk.mem_filterMap_file?.mp (List.mem_filter.mp hp).1
    exact ((Disk.mem_visitsFrom_iff hd hroot).mp hvisit).isPlace hroot
  refine ⟨hmem _, hmem _, hincreasing _, hincreasing _, fun p hp => ?_, fun p himage hcode => ?_⟩
  · exact isPlace_iff.mp ((hp.elim ((hmem _ p).mp · |>.1) ((hmem _ p).mp · |>.1)).isPlace hroot)
  · obtain ⟨heligible, himage⟩ := (hmem _ p).mp himage
    rw [Path.not_isImage_of_isCode ((hmem _ p).mp hcode).2] at himage
    exact absurd himage (by simp)

lemma scan_of_isDir {h : Host} {target : Path} (config : Config)
    (hdir : h.disk.isDir target = true) :
    (scan h target config).1
      = .ok (ofVisits (h.disk.visitsFrom config (h.disk.absoluteDir target))) := by
  rw [scan, hdir]
  rfl

/-- **A search returns the files that it is to find, and nothing else.** The tree may have links and
directories that cannot be listed, and the directory of the project may be reached through links.
The images and the sources are put in the order of paths, and no order in which directories list
their entries makes a difference. -/
theorem scan_isExact {h : Host} {target : Path} (config : Config) (hd : h.disk.IsNamed)
    (hdir : h.disk.isDir target = true) :
    ∃ inventory, (scan h target config).1 = .ok inventory ∧
      IsExact h.disk config (h.disk.absoluteDir target) inventory ∧
      ∀ h' : Host, h.disk.Reordered h'.disk → (scan h' target config).1 = .ok inventory := by
  have hplace := h.disk.isPlace_absoluteDir target
  refine ⟨_, scan_of_isDir config hdir, isExact_ofVisits config hd hplace, fun h' horder => ?_⟩
  have hexact := (isExact_ofVisits config hd hplace).reordered hd horder
  rw [scan_of_isDir config (horder.isDir_of_isDir hd hdir), horder.absoluteDir_eq,
    (isExact_ofVisits config (horder.isNamed hd) hplace).eq hexact]

/-- A project that is reached by a link, with a link to one of its directories, a directory that
cannot be listed, one that is ignored, and an image too deep. -/
def linkedProject : Disk :=
  { nodes :=
      [(["site".toList], ⟨.link ⟨"repo".toList⟩, .all⟩),
       (["repo".toList], ⟨.dir, .all⟩),
       (["repo".toList, "hero.png".toList], ⟨.file ⟨#[1]⟩, .all⟩),
       (["repo".toList, "again".toList], ⟨.link ⟨"src".toList⟩, .all⟩),
       (["repo".toList, "src".toList], ⟨.dir, .all⟩),
       (["repo".toList, "src".toList, "app.ts".toList], ⟨.file ⟨#[]⟩, .all⟩),
       (["repo".toList, "src".toList, "deep".toList], ⟨.dir, .all⟩),
       (["repo".toList, "src".toList, "deep".toList, "far.png".toList], ⟨.file ⟨#[2]⟩, .all⟩),
       (["repo".toList, "gen".toList], ⟨.dir, .all⟩),
       (["repo".toList, "gen".toList, "old.png".toList], ⟨.file ⟨#[3]⟩, .all⟩),
       (["repo".toList, "locked".toList], ⟨.dir, ⟨false, true, true⟩⟩),
       (["repo".toList, "locked".toList, "shut.png".toList], ⟨.file ⟨#[4]⟩, .all⟩)]
    workingDir := [] }

/-- The one image and the one source that are to be found, from the front and from the back. -/
theorem scan_isExact_of_linkedProject :
    let target : Path := ⟨"/site".toList⟩
    let config : Config :=
      { Config.forDir target with maxDepth := some 2, extraIgnoredDirs := ["gen".toList] }
    let found : Inventory := ⟨[⟨"/site/hero.png".toList⟩], [⟨"/site/src/app.ts".toList⟩]⟩
    let backwards : Disk := { linkedProject with nodes := linkedProject.nodes.reverse }
    linkedProject.IsNamed ∧ linkedProject.isDir target = true ∧
      IsExact linkedProject config target found ∧
      (scan (Host.ofDisk backwards) target config).1 = .ok found := by
  intro target config found backwards
  have hd : linkedProject.IsNamed := by decide +kernel
  have hdir : linkedProject.isDir target = true := by decide +kernel
  have hplace : linkedProject.absoluteDir target = target := by decide +kernel
  have hfound : ofVisits (linkedProject.visitsFrom config target) = found := by decide +kernel
  obtain ⟨inventory, hscan, hexact, horders⟩ :=
    scan_isExact (h := Host.ofDisk linkedProject) config hd hdir
  have hinventory : inventory = found := by
    have hvisits := scan_of_isDir (h := Host.ofDisk linkedProject) config hdir
    rw [hscan] at hvisits
    have hsame := Except.ok.inj hvisits
    rwa [show (Host.ofDisk linkedProject).disk = linkedProject from rfl, hplace, hfound] at hsame
  subst hinventory
  rw [show (Host.ofDisk linkedProject).disk = linkedProject from rfl, hplace] at hexact
  exact ⟨hd, hdir, hexact, horders _ ⟨rfl, List.reverse_perm _⟩⟩

end Inventory

end ImageMigration
