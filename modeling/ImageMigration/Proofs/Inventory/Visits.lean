/-
What the search of a project finds.

The directory of a search may be reached through links; from there on the way to a file has none.

* `list?_eq_ok_iff`, `mem_children`: a directory lists the entries one step below its place;
* `Disk.LeadsToFile`: names that lead from a directory to a file;
* `Disk.Reaches`, `Disk.exists_reaches`: **what it takes to come across a file;**
* `nodup_files_visitsFor`: no file is come across twice;
* `Inventory.mem_images`, `Inventory.mem_codes`: the images and the sources of a project are places
  of files that have the name of one.
-/
import ImageMigration.Inventory
import ImageMigration.Proofs.Disk.Linked
import ImageMigration.Proofs.Path.Extension

namespace ImageMigration

open Disk (pathOf)

/-- A directory as an absolute path is a place. -/
lemma Disk.isPlace_absoluteDir (d : Disk) (dir : Path) : (d.absoluteDir dir).IsPlace := by
  rw [Disk.absoluteDir]
  split
  · next h => exact isPlace_normal h
  · exact isPlace_normal (isAbsolute_join rfl dir)

lemma Disk.absoluteDir_of_isPlace {d : Disk} {dir : Path} (h : dir.IsPlace) :
    d.absoluteDir dir = dir := by
  rw [Disk.absoluteDir, if_pos h.isAbsolute, h.normal_eq]

/-! ### Listings -/

namespace Disk

variable {d d' : Disk} {l : Location} {entries : List (Text × Node)}

lemma mem_children {name : Text} {n : Node} :
    (name, n) ∈ d.children l ↔ (l ++ [name], n) ∈ d.nodes := by
  rw [children, List.mem_filterMap]
  constructor
  · rintro ⟨⟨k, m⟩, hmem, hk⟩
    rcases List.eq_nil_or_concat' k with rfl | ⟨front, last, rfl⟩
    · simp at hk
    · simp only [List.getLast?_concat, List.dropLast_concat] at hk
      split at hk
      · next hf =>
        simp only [Option.some.injEq, Prod.mk.injEq] at hk
        obtain ⟨rfl, rfl⟩ := hk
        rwa [← hf]
      · exact absurd hk (by simp)
  · intro hmem
    exact ⟨(l ++ [name], n), hmem, by simp⟩

/-- A directory lists every name once. -/
lemma pairwise_children (h : d.IsNamed) (l : Location) :
    (d.children l).Pairwise fun a b => a.1 ≠ b.1 := by
  have hkeys : d.nodes.Pairwise fun a b => a.1 ≠ b.1 := List.pairwise_map.mp h.distinct
  rw [children, List.pairwise_filterMap]
  refine hkeys.imp ?_
  rintro ⟨k, m⟩ ⟨k', m'⟩ hne a ha b hb heq
  rcases List.eq_nil_or_concat' k with rfl | ⟨front, last, rfl⟩
  · simp at ha
  · rcases List.eq_nil_or_concat' k' with rfl | ⟨front', last', rfl⟩
    · simp at hb
    · simp only [List.getLast?_concat, List.dropLast_concat, Option.ite_none_right_eq_some,
        Option.some.injEq] at ha hb
      obtain ⟨rfl, rfl⟩ := ha
      obtain ⟨rfl, rfl⟩ := hb
      exact hne (by rw [show last = last' from heq])

/-- A directory can be listed if it is found and may be read. -/
lemma list?_eq_ok_iff {p : Path} :
    d.list? p = .ok entries ↔ ∃ l n, d.find? true p = .ok (l, n) ∧ n.isDir = true ∧
      n.permissions.read = true ∧ entries = d.children l := by
  rw [list?]
  cases hf : d.find? true p with
  | error e => simp
  | ok found =>
      obtain ⟨l, n⟩ := found
      simp only [Except.ok.injEq, Prod.mk.injEq]
      constructor
      · intro h
        split at h
        · exact absurd h (by simp)
        next hdir =>
        split at h
        · exact absurd h (by simp)
        next hread =>
        rw [Except.ok.injEq] at h
        exact ⟨l, n, ⟨rfl, rfl⟩, by simpa using hdir, by simpa using hread, h.symm⟩
      · rintro ⟨l, n, ⟨rfl, rfl⟩, hdir, hread, rfl⟩
        rw [if_neg (by simp [hdir]), if_neg (by simp [hread])]

/-- A listing is that of the place of its path. -/
lemma list?_eq_children {p : Path} (h : d.list? p = .ok entries) :
    ∃ place n, d.resolve? true p = .ok place ∧ d.node? place = some n ∧
      entries = d.children place := by
  obtain ⟨place, n, hf, -, -, rfl⟩ := list?_eq_ok_iff.mp h
  obtain ⟨hplace, hn⟩ := find?_eq_ok_iff.mp hf
  exact ⟨place, n, hplace, hn, rfl⟩

/-- What is found as a directory in two trees is one in both, and can be listed in both. -/
lemma isDir_of_find? {p : Path} (hfind : ∀ l n, n.isDir = true → d.find? true p = .ok (l, n) →
    d'.find? true p = .ok (l, n)) (hdir : d.isDir p = true) : d'.isDir p = true := by
  rw [isDir] at hdir ⊢
  cases hf : d.find? true p with
  | error e => rw [hf] at hdir; exact absurd hdir (by simp)
  | ok found =>
      obtain ⟨l, n⟩ := found
      rw [hf] at hdir
      rw [hfind l n hdir hf]
      exact hdir

lemma exists_list?_of_find? {p : Path} (hfind : ∀ l n, n.isDir = true →
    d.find? true p = .ok (l, n) → d'.find? true p = .ok (l, n))
    (hlist : ∃ entries, d.list? p = .ok entries) : ∃ entries, d'.list? p = .ok entries := by
  obtain ⟨entries, hlist⟩ := hlist
  obtain ⟨l, n, hf, hdir, hread, -⟩ := list?_eq_ok_iff.mp hlist
  exact ⟨_, list?_eq_ok_iff.mpr ⟨l, n, hfind l n hdir hf, hdir, hread, rfl⟩⟩

/-- The names lead from a directory down to a file, through directories that are not ignored. -/
inductive LeadsToFile (d : Disk) (config : Config) : Location → List Text → Prop where
  | file {l : Location} {name : Text} {bytes : Bytes} {perms : Permissions} (hname : IsName name)
      (hnode : d.node? (l ++ [name]) = some ⟨.file bytes, perms⟩) : LeadsToFile d config l [name]
  | through {l : Location} {name : Text} {names : List Text} {perms : Permissions}
      (hname : IsName name) (hnode : d.node? (l ++ [name]) = some ⟨.dir, perms⟩)
      (hsearched : config.ignores name = false) (hrest : LeadsToFile d config (l ++ [name]) names) :
      LeadsToFile d config l (name :: names)

namespace LeadsToFile

variable {config : Config} {names : List Text}

lemma ne_nil (h : d.LeadsToFile config l names) : names ≠ [] := by cases h <;> simp

lemma areNames (h : d.LeadsToFile config l names) : AreNames names := by
  induction h with
  | file hname _ => exact fun m hm => List.mem_singleton.mp hm ▸ hname
  | through hname _ _ _ ih =>
      intro m hm
      rcases List.mem_cons.mp hm with rfl | hm
      · exact hname
      · exact ih m hm

lemma exists_file (h : d.LeadsToFile config l names) :
    ∃ bytes perms, d.node? (l ++ names) = some ⟨.file bytes, perms⟩ := by
  induction h with
  | file _ hnode => exact ⟨_, _, hnode⟩
  | through _ _ _ _ ih => simpa using ih

/-- In a tree with the same directories names lead to the file as well, if it is there. -/
lemma congr (h : d.LeadsToFile config l names)
    (hdirs : ∀ l n, n.isDir = true → d.node? l = some n → d'.node? l = some n)
    (hfile : ∃ bytes perms, d'.node? (l ++ names) = some ⟨.file bytes, perms⟩) :
    d'.LeadsToFile config l names := by
  induction h with
  | file hname _ =>
      obtain ⟨bytes, perms, hnode⟩ := hfile
      exact .file hname hnode
  | through hname hnode hsearched _ ih =>
      exact .through hname (hdirs _ _ rfl hnode) hsearched (ih (by simpa using hfile))

end LeadsToFile

/-! ### What is come across -/

section Visits

variable {config : Config} {fuel depth : Nat} {p : Path}

/-- What is come across at one entry of a directory. -/
def visitsAt (d : Disk) (config : Config) (fuel : Nat) (dir : Path) (depth : Nat)
    (entry : Text × Node) : List Visit :=
  match entry.2.content with
  | .file _ => [.file (dir.join ⟨entry.1⟩)]
  | .link _ => []
  | .dir =>
    if config.ignores entry.1 then []
    else d.visitsFor config fuel (dir.join ⟨entry.1⟩) (depth + 1)

lemma visitsFor_succ (d : Disk) (config : Config) (fuel : Nat) (dir : Path) (depth : Nat) :
    d.visitsFor config (fuel + 1) dir depth
      = if config.maxDepth.any (· ≤ depth) then []
        else match d.list? dir with
          | .error e => [.unlistable dir e]
          | .ok entries => entries.flatMap (d.visitsAt config fuel dir depth) := rfl

/-- What it takes to come across a file in a search of the directory at `root`, by the path of a
place `l`: the names lead to the file, which does not lie too deep, and the directories on the way
can be listed. -/
structure Reaches (d : Disk) (config : Config) (l root : Location) (depth : Nat)
    (names : List Text) : Prop where
  found : d.resolve? true (pathOf l) = .ok root
  leads : d.LeadsToFile config root names
  depth_le : ∀ max ∈ config.maxDepth, depth + names.length ≤ max
  listed : ∀ k < names.length, ∃ entries, d.list? (pathOf (l ++ names.take k)) = .ok entries

/-- A directory where a search comes across anything can be listed and does not lie too deep. -/
lemma listed_of_mem_visitsFor (hp : .file p ∈ d.visitsFor config (fuel + 1) (pathOf l) depth) :
    (∀ max ∈ config.maxDepth, depth + 1 ≤ max) ∧
      ∃ entries, d.list? (pathOf l) = .ok entries := by
  rw [visitsFor_succ] at hp
  split at hp
  · exact absurd hp (by simp)
  · next hdepth =>
    constructor
    · intro max hmax
      by_contra hlt
      rw [Option.any_eq_true] at hdepth
      exact hdepth ⟨max, hmax, decide_eq_true (by omega)⟩
    · cases hlist : d.list? (pathOf l) with
      | error e => rw [hlist] at hp; exact absurd hp (by simp)
      | ok entries => exact ⟨entries, rfl⟩

/-- A search of a directory that comes across a file comes across it at one of the entries. -/
lemma mem_visitsFor_succ (hd : d.IsNamed)
    (hp : .file p ∈ d.visitsFor config (fuel + 1) (pathOf l) depth) :
    ∃ root up name n, d.resolve? true (pathOf l) = .ok root ∧ d.node? root = some up ∧
      IsName name ∧ d.node? (root ++ [name]) = some n ∧
      .file p ∈ d.visitsAt config fuel (pathOf l) depth (name, n) := by
  obtain ⟨-, entries, hlist⟩ := listed_of_mem_visitsFor hp
  rw [visitsFor_succ] at hp
  split at hp
  · exact absurd hp (by simp)
  · rw [hlist] at hp
    obtain ⟨root, up, hroot, hup, rfl⟩ := list?_eq_children hlist
    obtain ⟨⟨name, n⟩, hmem, hvisit⟩ := List.mem_flatMap.mp hp
    rw [mem_children] at hmem
    exact ⟨root, up, name, n, hroot, hup, (hd.names _ hmem).last,
      hd.node?_of_mem (by simp) hmem, hvisit⟩

/-- **A file that is come across is reached.** -/
lemma exists_reaches (hd : d.IsNamed) (hl : AreNames l)
    (hp : .file p ∈ d.visitsFor config fuel (pathOf l) depth) :
    ∃ root names, p = pathOf (l ++ names) ∧ d.Reaches config l root depth names := by
  induction fuel generalizing l depth with
  | zero => exact absurd hp (by simp [visitsFor])
  | succ fuel ih =>
      obtain ⟨hdepth, hlist⟩ := listed_of_mem_visitsFor hp
      obtain ⟨root, up, name, ⟨content, perms⟩, hroot, hup, hname, hnode, hvisit⟩ :=
        mem_visitsFor_succ hd hp
      have hnames := hl.concat hname
      rw [visitsAt, join_pathOf hl hname.head?_ne] at hvisit
      cases content with
      | file bytes =>
          simp only [List.mem_singleton, Visit.file.injEq] at hvisit
          refine ⟨root, [name], hvisit, hroot, .file hname hnode, hdepth, fun k hk => ?_⟩
          obtain rfl : k = 0 := by simpa using hk
          simpa using hlist
      | link target => exact absurd hvisit (by simp)
      | dir =>
          simp only at hvisit
          split at hvisit
          · exact absurd hvisit (by simp)
          next hsearched =>
          obtain ⟨below, names, hp', hreaches⟩ := ih hnames hvisit
          -- whatever links lead to the directory of the search, this one is a step below it
          obtain rfl : below = root ++ [name] :=
            resolve?_concat hnames hroot hup hnode rfl hreaches.found
          refine ⟨root, name :: names, by simpa using hp', hroot, ?_, fun max hmax => ?_,
            fun k hk => ?_⟩
          · exact .through hname hnode (by simpa using hsearched) hreaches.leads
          · have hbound := hreaches.depth_le max hmax
            rw [List.length_cons]
            omega
          · cases k with
            | zero => simpa using hlist
            | succ k => simpa using hreaches.listed k (by simpa using hk)

/-- Without links, a file that is come across stands below the place of the search. -/
lemma exists_reaches_of_isTree (hd : d.IsTree) (hl : AreNames l)
    (hp : .file p ∈ d.visitsFor config fuel (pathOf l) depth) :
    ∃ names, p = pathOf (l ++ names) ∧ d.Reaches config l l depth names := by
  obtain ⟨root, names, hp', hreaches⟩ := exists_reaches hd.isNamed hl hp
  obtain ⟨rfl, -⟩ := resolve?_pathOf hd.hasNoLinks hl hreaches.found
  exact ⟨names, hp', hreaches⟩

lemma mem_filterMap_file? {visits : List Visit} :
    p ∈ visits.filterMap Visit.file? ↔ .file p ∈ visits := by
  rw [List.mem_filterMap]
  constructor
  · rintro ⟨v, hv, hp⟩
    cases v with
    | file q =>
        simp only [Visit.file?, Option.some.injEq] at hp
        rwa [← hp]
    | unlistable dir e => exact absurd hp (by simp [Visit.file?])
  · exact fun hp => ⟨_, hp, rfl⟩

/-- What is come across at an entry stands at the entry or below it. -/
lemma exists_place_of_mem_visitsAt (hd : d.IsNamed) {name : Text} {n : Node} (hl : AreNames l)
    (hname : IsName name) (hp : .file p ∈ d.visitsAt config fuel (pathOf l) depth (name, n)) :
    ∃ l', AreNames (l ++ name :: l') ∧ p = pathOf (l ++ name :: l') := by
  have hnames := hl.concat hname
  rw [visitsAt, join_pathOf hl hname.head?_ne] at hp
  cases hc : n.content with
  | file bytes =>
      simp only [hc, List.mem_singleton, Visit.file.injEq] at hp
      exact ⟨[], hnames, hp⟩
  | link target => simp [hc] at hp
  | dir =>
      simp only [hc] at hp
      split at hp
      · exact absurd hp (by simp)
      · obtain ⟨_, names, hp', hreaches⟩ := exists_reaches hd hnames hp
        exact ⟨names, by simpa using hnames.append hreaches.leads.areNames, by simpa using hp'⟩

/-- **No file is come across twice**: entries of one directory have different names. -/
lemma nodup_files_visitsFor (hd : d.IsNamed) (hl : AreNames l) :
    ((d.visitsFor config fuel (pathOf l) depth).filterMap Visit.file?).Nodup := by
  induction fuel generalizing l depth with
  | zero => simp [visitsFor]
  | succ fuel ih =>
      rw [visitsFor_succ]
      split
      · simp
      · cases hlist : d.list? (pathOf l) with
        | error e => exact List.nodup_nil
        | ok entries =>
            obtain ⟨root, -, -, -, rfl⟩ := list?_eq_children hlist
            have hchild : ∀ entry ∈ d.children root, IsName entry.1 := by
              rintro ⟨name, n⟩ hmem
              exact (hd.names _ (mem_children.mp hmem)).last
            simp only
            rw [List.filterMap_flatMap, List.nodup_flatMap]
            refine ⟨?_, ?_⟩
            · rintro ⟨name, n⟩ hmem
              have hname := hchild _ hmem
              rw [visitsAt, join_pathOf hl hname.head?_ne]
              cases n.content with
              | file bytes => simp [Visit.file?]
              | link target => simp
              | dir =>
                  simp only
                  split
                  · simp
                  · exact ih (hl.concat hname)
            · refine (pairwise_children hd root).imp_of_mem ?_
              rintro ⟨name, n⟩ ⟨name', n'⟩ hmem hmem' hne q hq hq'
              rw [mem_filterMap_file?] at hq hq'
              obtain ⟨r, hr, hp⟩ := exists_place_of_mem_visitsAt hd hl (hchild _ hmem) hq
              obtain ⟨r', hr', hp'⟩ := exists_place_of_mem_visitsAt hd hl (hchild _ hmem') hq'
              have heq := pathOf_injective hr hr' (hp.symm.trans hp')
              rw [List.append_cancel_left_eq, List.cons.injEq] at heq
              exact hne heq.1

end Visits

end Disk

/-! ### The inventory -/

lemma mem_filesOf {keep : Path → Bool} {visits : List Visit} {p : Path} :
    p ∈ filesOf keep visits ↔ .file p ∈ visits ∧ keep p = true := by
  rw [filesOf, Path.sort, (List.mergeSort_perm _ _).mem_iff, List.mem_filter,
    Disk.mem_filterMap_file?]

lemma nodup_filesOf {keep : Path → Bool} {visits : List Visit}
    (h : (visits.filterMap Visit.file?).Nodup) : (filesOf keep visits).Nodup := by
  rw [filesOf, Path.sort, (List.mergeSort_perm _ _).nodup_iff]
  exact h.filter _

/-- Files that are come across in the order of paths keep their order. -/
lemma filesOf_of_pairwise {keep : Path → Bool} {visits : List Visit}
    (h : ((visits.filterMap Visit.file?).filter keep).Pairwise fun p q => p.compare q != .gt) :
    filesOf keep visits = (visits.filterMap Visit.file?).filter keep :=
  List.mergeSort_of_pairwise h

/-- A file that a search found. -/
structure Disk.HoldsFile (d : Disk) (p : Path) : Prop where
  isPlace : p.IsPlace
  concat : ∃ l n, Listing.place p = l ++ [n]
  node : ∃ bytes perms, d.node? (Listing.place p) = some ⟨.file bytes, perms⟩

namespace Inventory

variable {h : Host} {target p : Path} {config : Config} {inventory : Inventory}

/-- What the search of a project that is there finds. -/
lemma scan_eq_ok (hs : (Inventory.scan h target config).1 = .ok inventory)
    (ht : target.IsPlace) : inventory = ofVisits (h.disk.visits config target) := by
  rw [scan, Disk.absoluteDir_of_isPlace ht] at hs
  split at hs
  · exact absurd hs (by simp)
  · next hdir =>
    rw [Disk.visitsFrom, if_pos (by simpa using hdir)] at hs
    simpa using hs.symm

@[simp] lemma disk_scan (h : Host) (target : Path) (config : Config) :
    (Inventory.scan h target config).2.disk = h.disk := by
  rw [scan]
  split <;> rfl

lemma holdsFile_of_mem_visits (hd : h.disk.IsTree) (ht : target.IsPlace)
    (hp : .file p ∈ h.disk.visits config target) : h.disk.HoldsFile p := by
  rw [← ht.2, Disk.visits] at hp
  obtain ⟨names, rfl, hreaches⟩ := Disk.exists_reaches_of_isTree hd ht.1 hp
  have hnames := ht.1.append hreaches.leads.areNames
  obtain ⟨front, n, rfl⟩ := (List.eq_nil_or_concat' names).resolve_left hreaches.leads.ne_nil
  refine ⟨isPlace_pathOf hnames, ?_, ?_⟩
  · rw [place_pathOf hnames]
    exact ⟨Listing.place target ++ front, n, by simp⟩
  · rw [place_pathOf hnames]
    exact hreaches.leads.exists_file

variable (hd : h.disk.IsTree) (ht : target.IsPlace)
  (hs : (Inventory.scan h target config).1 = .ok inventory)

include hd ht hs

/-- The images of a project are files with the name of an image. -/
lemma mem_images (hp : p ∈ inventory.images) : h.disk.HoldsFile p ∧ p.isImage = true := by
  rw [scan_eq_ok hs ht, ofVisits] at hp
  obtain ⟨hvisit, himage⟩ := mem_filesOf.mp hp
  exact ⟨holdsFile_of_mem_visits hd ht hvisit, himage⟩

/-- The sources of a project are files with the name of a source. -/
lemma mem_codes (hp : p ∈ inventory.codes) : h.disk.HoldsFile p ∧ p.isCode = true := by
  rw [scan_eq_ok hs ht, ofVisits] at hp
  obtain ⟨hvisit, hcode⟩ := mem_filesOf.mp hp
  exact ⟨holdsFile_of_mem_visits hd ht hvisit, hcode⟩

/-- No image and no source is found twice. -/
lemma nodup_images : inventory.images.Nodup := by
  rw [scan_eq_ok hs ht, Disk.visits, ← ht.2]
  exact nodup_filesOf (Disk.nodup_files_visitsFor hd.isNamed ht.1)

lemma nodup_codes : inventory.codes.Nodup := by
  rw [scan_eq_ok hs ht, Disk.visits, ← ht.2]
  exact nodup_filesOf (Disk.nodup_files_visitsFor hd.isNamed ht.1)

end Inventory

end ImageMigration
