/-
What a list of changes leaves of a tree.

Changes put files and erase them, one at a time. So whatever each of them preserves is there after
all of them: a tree stays a tree, a file that is not deleted keeps its permissions, and writing what
a file holds already changes nothing.

* `Mutation.after?_cases`: **the two ends of a change**;
* `Mutation.isTree_replay?`, `workingDir_replay?`: the tree as a whole;
* `Mutation.exists_node?_replay?`: a file that is not deleted, and its permissions;
* `Mutation.node?_replay?_of_idle`: **changes that write what is there.**
-/
import ImageMigration.Proofs.Host.Mutation

namespace ImageMigration.Mutation

variable {c : Mutation} {cs : List Mutation} {d d' : Disk} {l : Location} {n : Node}

/-- The bytes that a change writes. A deletion writes none. -/
def content? : Mutation → Option Bytes
  | write _ _ bytes => some bytes
  | update _ source plan => some (plan.edited source).toUtf8
  | delete _ => none

/-- The change writes what its file holds already. -/
def IsIdle (d : Disk) (c : Mutation) : Prop :=
  ∃ bytes perms, c.content? = some bytes ∧
    d.node? (Listing.place c.path) = some ⟨.file bytes, perms⟩

/-! ### One change -/

/-- **A change** puts a file with its bytes and the permissions of the older one, or erases a
file. -/
lemma after?_cases (hd : d.HasNoLinks) (hc : c.path.IsPlace) (hafter : c.after? d = .ok d') :
    Listing.place c.path ≠ [] ∧
      ((∃ bytes perms, c.content? = some bytes ∧
          (∀ old, d.node? (Listing.place c.path) = some old → old.permissions = perms) ∧
          d' = d.put (Listing.place c.path) ⟨.file bytes, perms⟩) ∨
        (c = .delete c.path ∧ d' = d.erase (Listing.place c.path))) := by
  have hwrite : ∀ bytes, d.write? c.path bytes = .ok d' → Listing.place c.path ≠ [] ∧
      ∃ perms, (∀ old, d.node? (Listing.place c.path) = some old → old.permissions = perms) ∧
        d' = d.put (Listing.place c.path) ⟨.file bytes, perms⟩ := by
    intro bytes hw
    rw [← hc.2] at hw
    obtain ⟨hne, -, perms, hperms, hput⟩ := Disk.write?_pathOf hd hc.1 hw
    exact ⟨hne, perms, hperms, hput⟩
  cases c with
  | write target oldSize bytes =>
      obtain ⟨hne, perms, hperms, hput⟩ := hwrite _ hafter
      exact ⟨hne, Or.inl ⟨_, perms, rfl, hperms, hput⟩⟩
  | update file source plan =>
      obtain ⟨hne, perms, hperms, hput⟩ := hwrite _ hafter
      exact ⟨hne, Or.inl ⟨_, perms, rfl, hperms, hput⟩⟩
  | delete file =>
      obtain ⟨hne, herase, -⟩ := Disk.remove?_of_isPlace hd hc hafter
      exact ⟨hne, Or.inr ⟨rfl, herase⟩⟩

lemma isTree_after? (hd : d.IsTree) (hc : c.path.IsPlace) (hafter : c.after? d = .ok d') :
    d'.IsTree := by
  have hwrite : ∀ (p : Path) bytes, p.IsPlace → d.write? p bytes = .ok d' → d'.IsTree := by
    intro p bytes hp hw
    rw [← hp.2] at hw
    exact Disk.isTree_write? hd hp.1 hw
  have hremove : ∀ p : Path, p.IsPlace → d.remove? p = .ok d' → d'.IsTree := by
    intro p hp hr
    rw [← hp.2] at hr
    exact Disk.isTree_remove? hd hp.1 hr
  cases c with
  | write target oldSize bytes => exact hwrite _ _ hc hafter
  | update file source plan => exact hwrite _ _ hc hafter
  | delete file => exact hremove _ hc hafter

/-- The file of a change that is no deletion of it is there as before, but for its bytes. -/
lemma exists_node?_after? (hd : d.HasNoLinks) (hc : c.path.IsPlace)
    (hafter : c.after? d = .ok d') (hkept : ∀ p, c = .delete p → Listing.place p ≠ l)
    (hn : ∃ n', d.node? l = some n' ∧ n'.permissions = n.permissions) :
    ∃ n', d'.node? l = some n' ∧ n'.permissions = n.permissions := by
  obtain ⟨old, hold, hsame⟩ := hn
  obtain ⟨hne, ⟨bytes, perms, -, hperms, rfl⟩ | ⟨hdelete, rfl⟩⟩ := after?_cases hd hc hafter
  · rw [Disk.node?_put hne]
    by_cases hl : l = Listing.place c.path
    · rw [if_pos hl]
      exact ⟨_, rfl, (hperms old (hl ▸ hold)).symm.trans hsame⟩
    · rw [if_neg hl]
      exact ⟨old, hold, hsame⟩
  · rw [Disk.node?_erase hne, if_neg fun hl => hkept _ hdelete hl.symm]
    exact ⟨old, hold, hsame⟩

/-- Writing what is there leaves all entries. -/
lemma node?_after?_of_idle (hd : d.HasNoLinks) (hc : c.path.IsPlace) (hidle : c.IsIdle d)
    (hafter : c.after? d = .ok d') (l : Location) : d'.node? l = d.node? l := by
  obtain ⟨bytes, perms, hcontent, hnode⟩ := hidle
  obtain ⟨hne, ⟨bytes', perms', hcontent', hperms, rfl⟩ | ⟨hdelete, -⟩⟩ := after?_cases hd hc hafter
  · obtain rfl := Option.some.inj (hcontent'.symm.trans hcontent)
    have hsame : perms = perms' := hperms _ hnode
    rw [Disk.node?_put hne, ← hsame]
    by_cases hl : l = Listing.place c.path
    · rw [if_pos hl, hl, hnode]
    · rw [if_neg hl]
  · rw [hdelete] at hcontent
    exact absurd hcontent (Option.some_ne_none _).symm

/-! ### Lists of changes -/

section Lists

variable (hcs : ∀ c ∈ cs, c.path.IsPlace) (hreplay : replay? cs d = .ok d')

include hcs hreplay

/-- **A tree stays a tree.** -/
lemma isTree_replay? (hd : d.IsTree) : d'.IsTree :=
  replay?_preserves (fun c hc _ _ he hafter => isTree_after? he (hcs c hc) hafter) hd hreplay

/-- The working directory does not change. -/
lemma workingDir_replay? (hd : d.HasNoLinks) : d'.workingDir = d.workingDir := by
  have hall : d'.HasNoLinks ∧ d'.workingDir = d.workingDir := by
    refine @replay?_preserves (fun e => e.HasNoLinks ∧ e.workingDir = d.workingDir) _ _ _
      (fun c hc e e' he hafter => ?_) ⟨hd, rfl⟩ hreplay
    refine ⟨(filesChanged_after? he.1 (hcs c hc) hafter).hasNoLinks he.1, Eq.trans ?_ he.2⟩
    obtain ⟨-, ⟨bytes, perms, -, -, rfl⟩ | ⟨-, rfl⟩⟩ := after?_cases he.1 (hcs c hc) hafter <;> rfl
  exact hall.2

/-- **A file that is not deleted is there as before,** but for its bytes. -/
lemma exists_node?_replay? (hd : d.HasNoLinks) (hkept : ∀ p, .delete p ∈ cs → Listing.place p ≠ l)
    (hn : d.node? l = some n) : ∃ n', d'.node? l = some n' ∧ n'.permissions = n.permissions := by
  have hall : d'.HasNoLinks ∧ ∃ n', d'.node? l = some n' ∧ n'.permissions = n.permissions := by
    refine @replay?_preserves (fun e => e.HasNoLinks ∧
      ∃ n', e.node? l = some n' ∧ n'.permissions = n.permissions) _ _ _
      (fun c hc e e' he hafter => ?_) ⟨hd, n, hn, rfl⟩ hreplay
    refine ⟨(filesChanged_after? he.1 (hcs c hc) hafter).hasNoLinks he.1, ?_⟩
    exact exists_node?_after? he.1 (hcs c hc) hafter (fun p hp => hkept p (hp ▸ hc)) he.2
  exact hall.2

/-- **Changes that write what is there leave all entries.** -/
lemma node?_replay?_of_idle (hd : d.HasNoLinks) (hidle : ∀ c ∈ cs, c.IsIdle d) (l : Location) :
    d'.node? l = d.node? l := by
  have hall : d'.HasNoLinks ∧ ∀ l, d'.node? l = d.node? l := by
    refine @replay?_preserves (fun e => e.HasNoLinks ∧ ∀ l, e.node? l = d.node? l) _ _ _
      (fun c hc e e' he hafter => ?_) ⟨hd, fun _ => rfl⟩ hreplay
    refine ⟨(filesChanged_after? he.1 (hcs c hc) hafter).hasNoLinks he.1, fun l => ?_⟩
    obtain ⟨bytes, perms, hcontent, hnode⟩ := hidle c hc
    have hidle' : c.IsIdle e := ⟨bytes, perms, hcontent, (he.2 _).trans hnode⟩
    exact (node?_after?_of_idle he.1 (hcs c hc) hidle' hafter l).trans (he.2 l)
  exact hall.2 l

end Lists

end ImageMigration.Mutation
