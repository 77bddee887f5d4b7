/-
The order of paths is a total order of what they mean.

Steps are told apart by lists of numbers: their rank, and behind that of a name its letters. Paths
are then compared as lists of such lists, and all laws are those of lists of numbers.

* `Path.key`, `Path.compare_eq`: the order of paths is that of their keys;
* `Path.IsIncreasing`: paths one behind the other, none of them twice;
* `Path.isIncreasing_sort`: different places are put in such an order;
* `Path.IsIncreasing.eq_of_mem_iff`: **a set of paths has one such order only.**
-/
import Mathlib.Data.List.Perm.Basic
import ImageMigration.Path.Order
import ImageMigration.Proofs.Path.Rooted

namespace ImageMigration.Path

/-! ### Keys -/

lemma compareText_eq (s t : Text) :
    compareText s t = Ord.compare (s.map Char.toNat) (t.map Char.toNat) := by
  induction s generalizing t with
  | nil => cases t <;> rfl
  | cons a s ih =>
      cases t with
      | nil => rfl
      | cons b t => rw [compareText, ih, List.map_cons, List.map_cons, List.compare_cons_cons]; rfl

/-- The rank of a step, and behind it the letters of a name. -/
def Component.key : Component → List Nat
  | name n => 3 :: n.map Char.toNat
  | c => [c.rank]

lemma Component.key_injective : Function.Injective Component.key := by
  intro a b h
  cases a <;> cases b <;> simp_all [key, rank, Char.toNat_inj, List.map_inj_right]

lemma Component.compare_eq (a b : Component) : a.compare b = Ord.compare a.key b.key := by
  cases a with
  | name m =>
      cases b with
      | name n => rw [compare, compareText_eq, key, key, List.compare_cons_cons]; rfl
      | root | current | parent => rfl
  | root | current | parent => cases b <;> rfl

/-- The keys of the steps of a path. -/
def key (p : Path) : List (List Nat) := p.components.map Component.key

lemma compareComponents_eq (s t : List Component) :
    compareComponents s t = Ord.compare (s.map Component.key) (t.map Component.key) := by
  induction s generalizing t with
  | nil => cases t <;> rfl
  | cons a s ih =>
      cases t with
      | nil => rfl
      | cons b t =>
          rw [compareComponents, Component.compare_eq, ih, List.map_cons, List.map_cons,
            List.compare_cons_cons]

/-- **Paths are compared as their keys.** -/
lemma compare_eq (p q : Path) : p.compare q = Ord.compare p.key q.key :=
  compareComponents_eq _ _

/-! ### Laws -/

section Laws

variable {p q r : Path}

/-- Paths that are equal in this order take the same steps. -/
lemma components_eq_of_compare (h : p.compare q = .eq) : p.components = q.components := by
  rw [compare_eq] at h
  exact Component.key_injective.list_map (Std.LawfulEqCmp.eq_of_compare h)

/-- Places that are equal in this order are the same. -/
lemma IsPlace.eq_of_compare (hp : p.IsPlace) (hq : q.IsPlace) (h : p.compare q = .eq) : p = q := by
  have hsteps := components_eq_of_compare h
  rw [← hp.2, ← hq.2, components_pathOf hp.1, components_pathOf hq.1] at hsteps
  have hplaces : Listing.place p = Listing.place q :=
    (List.map_injective_iff.mpr fun _ _ h => Component.name.inj h) (List.cons.inj hsteps).2
  rw [← hp.2, ← hq.2, hplaces]

lemma compare_self (p : Path) : p.compare p = .eq := by
  rw [compare_eq]
  exact Std.ReflCmp.compare_self

lemma compare_swap (p q : Path) : p.compare q = (q.compare p).swap := by
  rw [compare_eq, compare_eq]
  exact Std.OrientedCmp.eq_swap

lemma bne_gt_eq_isLE (o : Ordering) : (o != .gt) = o.isLE := by cases o <;> rfl

lemma isLE_trans (h : (p.compare q).isLE = true) (h' : (q.compare r).isLE = true) :
    (p.compare r).isLE = true := by
  rw [compare_eq] at h h' ⊢
  exact Std.TransCmp.isLE_trans h h'

lemma isLE_total (p q : Path) : ((p.compare q).isLE || (q.compare p).isLE) = true := by
  rw [compare_swap p q]
  cases q.compare p <;> rfl

end Laws

/-! ### Lists in order -/

/-- Every path of the list stands in front of all behind it. -/
def IsIncreasing (paths : List Path) : Prop := paths.Pairwise fun p q => p.compare q = .lt

variable {paths paths' : List Path}

lemma IsIncreasing.nodup (h : IsIncreasing paths) : paths.Nodup := by
  refine h.imp fun {p q} hlt heq => ?_
  rw [heq, compare_self] at hlt
  exact absurd hlt (by simp)

/-- A sorted list goes up. -/
lemma pairwise_sort (paths : List Path) :
    (sort paths).Pairwise fun p q => (p.compare q).isLE = true := by
  have hpairs : (sort paths).Pairwise fun p q => (p.compare q != .gt) = true :=
    List.pairwise_mergeSort
      (fun p q r h h' => by
        rw [bne_gt_eq_isLE] at h h' ⊢
        exact isLE_trans h h')
      (fun p q => by
        rw [bne_gt_eq_isLE, bne_gt_eq_isLE]
        exact isLE_total p q) paths
  exact hpairs.imp fun h => by rwa [bne_gt_eq_isLE] at h

/-- **Different places are sorted one behind the other.** -/
lemma isIncreasing_sort (hplaces : ∀ p ∈ paths, p.IsPlace) (hnodup : paths.Nodup) :
    IsIncreasing (sort paths) := by
  have hperm : (sort paths).Perm paths := List.mergeSort_perm _ _
  have hdistinct : (sort paths).Nodup := hperm.nodup_iff.mpr hnodup
  refine ((pairwise_sort paths).and hdistinct).imp_of_mem ?_
  rintro p q hp hq ⟨hle, hne⟩
  cases h : p.compare q with
  | lt => rfl
  | eq =>
      exact absurd ((hplaces p (hperm.mem_iff.mp hp)).eq_of_compare
        (hplaces q (hperm.mem_iff.mp hq)) h) hne
  | gt => rw [h] at hle; exact absurd hle (by simp)

/-- **A set of paths is put in order in one way only.** -/
lemma IsIncreasing.eq_of_mem_iff (h : IsIncreasing paths) (h' : IsIncreasing paths')
    (hmem : ∀ p, p ∈ paths ↔ p ∈ paths') : paths = paths' := by
  have hperm : paths.Perm paths' := (List.perm_ext_iff_of_nodup h.nodup h'.nodup).mpr hmem
  refine hperm.eq_of_pairwise (fun p q _ _ hlt hgt => ?_) h h'
  rw [compare_swap, hgt] at hlt
  exact absurd hlt (by simp)

end ImageMigration.Path
