/-
What the search of a project does not miss.

A file is come across when every directory on the way to it can be listed, none of them is ignored,
and it does not lie too deep.

* `Disk.LeadsToFile.length_le_height`: no search ends too early;
* `Disk.mem_visitsFor`, `Disk.Reaches.mem_visits`: **the search comes across every file that is
  reached.**
-/
import ImageMigration.Proofs.Inventory.Visits

namespace ImageMigration

open Disk (pathOf)

namespace Disk

variable {d : Disk} {l root : Location} {names : List Text} {name : Text} {config : Config}

lemma le_foldl_max {a start : Nat} {lengths : List Nat} (h : a ∈ lengths ∨ a ≤ start) :
    a ≤ lengths.foldl max start := by
  induction lengths generalizing start with
  | nil => exact h.resolve_left (by simp)
  | cons b lengths ih =>
      refine ih ?_
      rcases h with h | h
      · rcases List.mem_cons.mp h with rfl | h
        · exact Or.inr (Nat.le_max_right _ _)
        · exact Or.inl h
      · exact Or.inr (Nat.le_trans h (Nat.le_max_left _ _))

namespace LeadsToFile

/-- The file lies no deeper than the tree is high. -/
lemma length_le_height (h : d.LeadsToFile config l names) : names.length ≤ d.height := by
  obtain ⟨bytes, perms, hnode⟩ := h.exists_file
  have hmem := mem_of_node? (by simp [h.ne_nil]) hnode
  have hlength : (l ++ names).length ≤ (d.nodes.map fun n => n.1.length).foldl max 0 :=
    le_foldl_max (Or.inl (List.mem_map.mpr ⟨_, hmem, rfl⟩))
  rw [List.length_append] at hlength
  rw [height]
  omega

end LeadsToFile

/-- What is at an entry of a directory is come across, if the directory can be listed and does not
lie too deep. -/
lemma mem_visitsFor_of_mem_visitsAt {fuel depth : Nat} {n : Node} {v : Visit}
    (hroot : d.resolve? true (pathOf l) = .ok root) (hnode : d.node? (root ++ [name]) = some n)
    (hdepth : ∀ max ∈ config.maxDepth, depth < max)
    (hlisted : ∃ entries, d.list? (pathOf l) = .ok entries)
    (hv : v ∈ d.visitsAt config fuel (pathOf l) depth (name, n)) :
    v ∈ d.visitsFor config (fuel + 1) (pathOf l) depth := by
  obtain ⟨entries, hlist⟩ := hlisted
  obtain ⟨place, -, hplace, -, rfl⟩ := list?_eq_children hlist
  rw [hroot, Except.ok.injEq] at hplace
  subst hplace
  rw [visitsFor_succ, if_neg, hlist]
  · exact List.mem_flatMap.mpr ⟨_, mem_children.mpr (mem_of_node? (by simp) hnode), hv⟩
  · rw [Option.any_eq_true]
    rintro ⟨max, hmax, hle⟩
    have hlt := hdepth max hmax
    rw [decide_eq_true_eq] at hle
    omega

/-- **The search comes across every file that can be listed.** Let names lead from the place of a
directory to a file that does not lie too deep. If the directories on the way can be listed, the
file is come across. -/
lemma mem_visitsFor {fuel depth : Nat} (h : d.LeadsToFile config root names) (hl : AreNames l)
    (hroot : d.resolve? true (pathOf l) = .ok root) (hfuel : names.length ≤ fuel)
    (hdepth : ∀ max ∈ config.maxDepth, depth + names.length ≤ max)
    (hlisted : ∀ k < names.length, ∃ entries, d.list? (pathOf (l ++ names.take k)) = .ok entries) :
    .file (pathOf (l ++ names)) ∈ d.visitsFor config fuel (pathOf l) depth := by
  induction h generalizing l depth fuel with
  | @file root name bytes perms hname hnode =>
      obtain ⟨fuel, rfl⟩ := Nat.exists_eq_succ_of_ne_zero (by simp at hfuel; omega : fuel ≠ 0)
      refine mem_visitsFor_of_mem_visitsAt hroot hnode (fun max hmax => hdepth max hmax)
        (by simpa using hlisted 0) ?_
      rw [visitsAt, join_pathOf hl hname.head?_ne]
      exact List.mem_singleton.mpr rfl
  | @through root name names perms hname hnode hsearched hrest ih =>
      obtain ⟨fuel, rfl⟩ := Nat.exists_eq_succ_of_ne_zero (by simp at hfuel; omega : fuel ≠ 0)
      have hhere : ∃ entries, d.list? (pathOf l) = .ok entries := by simpa using hlisted 0
      have hnames := hl.concat hname
      have hdepth' : ∀ max ∈ config.maxDepth, depth + 1 + names.length ≤ max := by
        intro max hmax
        have hbound := hdepth max hmax
        rw [List.length_cons] at hbound
        omega
      have hlisted' : ∀ k < names.length,
          ∃ entries, d.list? (pathOf (l ++ [name] ++ names.take k)) = .ok entries :=
        fun k hk => by simpa using hlisted (k + 1) (by simpa using hk)
      -- the next directory can be listed, so its path leads to a place, which is one step further
      have hnext : d.resolve? true (pathOf (l ++ [name])) = .ok (root ++ [name]) := by
        obtain ⟨entries, hlist⟩ := hhere
        obtain ⟨place, n', hplace, hn', -⟩ := list?_eq_children hlist
        rw [hroot, Except.ok.injEq] at hplace
        subst hplace
        obtain ⟨entries', hlist'⟩ := hlisted' 0 (by cases hrest <;> simp)
        rw [List.take_zero, List.append_nil] at hlist'
        obtain ⟨place', -, hplace', -, -⟩ := list?_eq_children hlist'
        rw [hplace', resolve?_concat hnames hroot hn' hnode rfl hplace']
      have hbelow := ih hnames hnext (Nat.le_of_succ_le_succ hfuel) hdepth' hlisted'
      refine mem_visitsFor_of_mem_visitsAt hroot hnode
        (fun max hmax => by have hbound := hdepth' max hmax; omega) hhere ?_
      rw [visitsAt, join_pathOf hl hname.head?_ne]
      simp only [hsearched, Bool.false_eq_true, if_false]
      simpa using hbelow

/-- **A file that is reached is come across.** -/
lemma Reaches.mem_visits (h : d.Reaches config l root 0 names) (hl : AreNames l) :
    .file (pathOf (l ++ names)) ∈ d.visits config (pathOf l) :=
  mem_visitsFor h.leads hl h.found h.leads.length_le_height h.depth_le h.listed

end Disk

end ImageMigration
