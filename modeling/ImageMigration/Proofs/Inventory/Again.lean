/-
Searches of trees with the same directories.

What a search comes across hangs on the directories on the way: whether they can be listed, how deep
they lie, and whether they are ignored. So trees that differ in files only are searched alike, and a
file that was come across in one of them is come across in the other, if it is there.

* `Disk.SameDirectories`: trees that differ in files only;
* `Disk.Reaches.of_sameDirectories`: a file that is reached in one of them is reached in the other;
* `Disk.mem_visits_of_sameDirectories`: **the same files are found again.**
-/
import ImageMigration.Proofs.Disk.Change
import ImageMigration.Proofs.Inventory.Complete

namespace ImageMigration.Disk

variable {d d' : Disk} {config : Config} {l l' : Location} {names : List Text} {n : Node} {p : Path}
  {fuel depth : Nat} {entries : List (Text × Node)}

/-- The same directories, with the same permissions, are at the same places. -/
def SameDirectories (d d' : Disk) : Prop :=
  ∀ l n, n.isDir = true → (d.node? l = some n ↔ d'.node? l = some n)

/-! ### Directories -/

lemma FilesChanged.sameDirectories {places : Location → Prop} (h : FilesChanged places d d') :
    SameDirectories d d' := fun _ _ hdir =>
  ⟨fun hn => h.node?_eq_of_isDir hn hdir, fun hn => h.node?_eq_of_isDir_after hn hdir⟩

namespace SameDirectories

lemma symm (h : SameDirectories d d') : SameDirectories d' d := fun l n hdir => (h l n hdir).symm

variable (h : SameDirectories d d') (hd : d.IsTree) (hd' : d'.IsTree) (hl : AreNames l)

include h hd hd' hl

/-- A directory is found as before. -/
lemma find?_eq (hn : d.node? l = some n) (hdir : n.isDir = true) (follow : Bool) :
    d'.find? follow (pathOf l) = d.find? follow (pathOf l) := by
  refine find?_congr hd.hasNoLinks hd'.hasNoLinks hl fun k hk => ?_
  rcases Nat.lt_or_eq_of_le hk with hlt | rfl
  · obtain ⟨up, hup, hdir'⟩ := hd.isDir_above hlt hn
    rw [hup, (h _ _ hdir').mp hup]
  · rw [List.take_length, hn, (h _ _ hdir).mp hn]

/-- A directory that is found is found again. -/
lemma find?_eq_ok (hf : d.find? true (pathOf l) = .ok (l', n)) (hdir : n.isDir = true) :
    d'.find? true (pathOf l) = .ok (l', n) := by
  obtain ⟨rfl, hn⟩ := find?_pathOf hd.hasNoLinks hl hf
  rw [h.find?_eq hd hd' hl hn hdir, hf]

lemma isDir_pathOf (hdir : d.isDir (pathOf l) = true) : d'.isDir (pathOf l) = true :=
  isDir_of_find? (fun _ _ hdir hf => h.find?_eq_ok hd hd' hl hf hdir) hdir

/-- A directory that can be listed can be listed again. -/
lemma exists_list? (hlist : ∃ entries, d.list? (pathOf l) = .ok entries) :
    ∃ entries, d'.list? (pathOf l) = .ok entries :=
  exists_list?_of_find? (fun _ _ hdir hf => h.find?_eq_ok hd hd' hl hf hdir) hlist

end SameDirectories

/-! ### Files that are come across -/

namespace Reaches

/-- In a tree with the same directories the file is reached as well, if it is there. -/
lemma of_sameDirectories (h : d.Reaches config l l depth names) (hsame : SameDirectories d d')
    (hd : d.IsTree) (hd' : d'.IsTree) (hl : AreNames l)
    (hfile : ∃ bytes perms, d'.node? (l ++ names) = some ⟨.file bytes, perms⟩) :
    d'.Reaches config l l depth names := by
  have hlisted : ∀ k < names.length,
      ∃ entries, d'.list? (pathOf (l ++ names.take k)) = .ok entries := by
    intro k hk
    have hnames : AreNames (l ++ names.take k) :=
      hl.append fun m hm => h.leads.areNames m (List.mem_of_mem_take hm)
    exact hsame.exists_list? hd hd' hnames (h.listed k hk)
  refine ⟨?_, ?_, h.depth_le, hlisted⟩
  · obtain ⟨entries, hlist⟩ := hlisted 0 (List.length_pos_of_ne_nil h.leads.ne_nil)
    rw [List.take_zero, List.append_nil] at hlist
    obtain ⟨place, -, hplace, -, -⟩ := list?_eq_children hlist
    obtain ⟨rfl, -⟩ := resolve?_pathOf hd'.hasNoLinks hl hplace
    exact hplace
  · exact h.leads.congr (fun l n hdir => (hsame l n hdir).mp) hfile

end Reaches

/-- **Trees with the same directories are searched alike**: a file that is come across in one of
them is come across in the other, if it is there. -/
lemma mem_visits_of_sameDirectories (hsame : SameDirectories d d') (hd : d.IsTree) (hd' : d'.IsTree)
    {target : Path} (ht : target.IsPlace) (hp : .file p ∈ d.visits config target)
    (hfile : d'.HoldsFile p) : .file p ∈ d'.visits config target := by
  rw [← ht.2] at hp ⊢
  obtain ⟨names, rfl, hreaches⟩ := exists_reaches_of_isTree hd ht.1 hp
  have hnames := ht.1.append hreaches.leads.areNames
  have hnode := hfile.node
  rw [place_pathOf hnames] at hnode
  exact (hreaches.of_sameDirectories hsame hd hd' ht.1 hnode).mem_visits ht.1

end ImageMigration.Disk
