/-
Trees from which entries were taken away.

A path whose last link is not followed comes to its place by way of directories and links. It still
does when entries are gone that it does not pass, and no path comes to a place where it did not come
before. So if a path keeps its place whenever one of some entries is gone, it keeps it when all of
them are.

* `Disk.without`, `Disk.node?_without`: the tree without the entries at some places;
* `Disk.HoldsShared`: a tree with all that two others share; `HoldsShared.resolve?_eq`: **a path that
  has a place in both has it there too**;
* `Disk.find?_of_without`: nothing new is found in a tree without some entries;
* `Disk.resolve?_without`: **what each entry alone can be missed for, all of them can be missed
  for**;
* `Disk.FilesDiffer.erase`: a file is on no other path's way;
* `Disk.removes?`, `Disk.remove?_eq_ok_iff`: what removing a path does; `HasFilesAt.removes?_without`:
  **what can be removed still**, with some entries gone.
-/
import ImageMigration.Proofs.Disk.Linked

namespace ImageMigration.Disk

variable {d e₁ e₂ e : Disk} {here l m : Location} {names rest : List Text} {name : Text} {p : Path}
  {n : Node} {places : List Location}

/-! ### Walks to a last name -/

lemma checkEnter_of_walk {follow : Bool} {s : Stop} (h : d.walk follow here (name :: rest) = .ok s) :
    d.checkEnter here = .ok () := by
  rw [walk] at h
  cases henter : d.checkEnter here with
  | error e => rw [henter] at h; exact absurd h (by simp)
  | ok u => rfl

lemma walk_silent {follow : Bool} (henter : d.checkEnter here = .ok ())
    (hsilent : Path.isSilent name = true) :
    d.walk follow here (name :: rest) = d.walk follow here rest := by
  rw [walk, henter]
  simp only [hsilent, if_true]

lemma walk_up {follow : Bool} (henter : d.checkEnter here = .ok ()) :
    d.walk follow here (['.', '.'] :: rest) = d.walk follow here.dropLast rest := by
  rw [walk, henter]
  rfl

section Names

variable (henter : d.checkEnter here = .ok ()) (hsilent : Path.isSilent name = false)
  (hdots : name ≠ ['.', '.'])

include henter hsilent hdots

/-- A walk that does not follow its last name ends there, whatever stands there. -/
lemma walk_last : d.walk false here [name] = .ok (.place (here ++ [name])) := by
  rw [walk, henter]
  simp only [hsilent, Bool.false_eq_true, if_false, if_neg hdots]
  split
  · rfl
  · rfl
  · rw [walk]

lemma walk_link {target : Path} {perms : Permissions} (hrest : rest ≠ [])
    (hn : d.node? (here ++ [name]) = some ⟨.link target, perms⟩) :
    d.walk false here (name :: rest) = .ok (.link target here rest) := by
  rw [walk, henter]
  simp [hsilent, hdots, hn, hrest]

lemma walk_next (hn : d.node? (here ++ [name]) = some n) (hlink : n.isLink = false) :
    d.walk false here (name :: rest) = d.walk false (here ++ [name]) rest := by
  rw [walk, henter]
  obtain ⟨content, perms⟩ := n
  cases content with
  | link target => exact absurd hlink (by simp [Node.isLink])
  | file bytes => simp [hsilent, hdots, hn]
  | dir => simp [hsilent, hdots, hn]

/-- A walk with more names ahead is at an entry. -/
lemma exists_node?_of_walk {s : Stop} (hrest : rest ≠ [])
    (h : d.walk false here (name :: rest) = .ok s) : ∃ n, d.node? (here ++ [name]) = some n := by
  cases hn : d.node? (here ++ [name]) with
  | some n => exact ⟨n, rfl⟩
  | none =>
      rw [walk, henter] at h
      simp [hsilent, hdots, hn, hrest] at h

end Names

/-! ### What two trees share -/

/-- The last tree holds all that the first two share, and these do not contradict each other. -/
structure HoldsShared (e₁ e₂ e : Disk) : Prop where
  workingDir : e₁.workingDir = e.workingDir ∧ e₂.workingDir = e.workingDir
  node : ∀ l n₁ n₂, e₁.node? l = some n₁ → e₂.node? l = some n₂ → n₁ = n₂ ∧ e.node? l = some n₁

namespace HoldsShared

variable (h : HoldsShared e₁ e₂ e)

include h

lemma checkEnter_eq (h₁ : e₁.checkEnter here = .ok ()) (h₂ : e₂.checkEnter here = .ok ()) :
    e.checkEnter here = .ok () := by
  obtain ⟨n₁, hn₁, hdir, hperm⟩ := checkEnter_eq_ok_iff.mp h₁
  obtain ⟨n₂, hn₂, -, -⟩ := checkEnter_eq_ok_iff.mp h₂
  exact checkEnter_eq_ok_iff.mpr ⟨n₁, (h.node _ _ _ hn₁ hn₂).2, hdir, hperm⟩

/-- Walks that come to an end in both trees come to the same end, in the third one too. -/
lemma walk_eq {s₁ s₂ : Stop} (h₁ : e₁.walk false here names = .ok s₁)
    (h₂ : e₂.walk false here names = .ok s₂) :
    s₁ = s₂ ∧ e.walk false here names = .ok s₁ := by
  induction names generalizing here with
  | nil =>
      rw [walk, Except.ok.injEq] at h₁ h₂
      rw [walk, ← h₁, ← h₂]
      exact ⟨rfl, rfl⟩
  | cons name rest ih =>
      have henter₁ := checkEnter_of_walk h₁
      have henter₂ := checkEnter_of_walk h₂
      have henter := h.checkEnter_eq henter₁ henter₂
      cases hsilent : Path.isSilent name with
      | true =>
          rw [walk_silent henter₁ hsilent] at h₁
          rw [walk_silent henter₂ hsilent] at h₂
          rw [walk_silent henter hsilent]
          exact ih h₁ h₂
      | false =>
        by_cases hdots : name = ['.', '.']
        · subst hdots
          rw [walk_up henter₁] at h₁
          rw [walk_up henter₂] at h₂
          rw [walk_up henter]
          exact ih h₁ h₂
        by_cases hrest : rest = []
        · -- what stands at the last name does not matter
          subst hrest
          rw [walk_last henter₁ hsilent hdots, Except.ok.injEq] at h₁
          rw [walk_last henter₂ hsilent hdots, Except.ok.injEq] at h₂
          rw [walk_last henter hsilent hdots, ← h₁, ← h₂]
          exact ⟨rfl, rfl⟩
        · obtain ⟨n, hn₁⟩ := exists_node?_of_walk henter₁ hsilent hdots hrest h₁
          obtain ⟨n₂, hn₂⟩ := exists_node?_of_walk henter₂ hsilent hdots hrest h₂
          obtain ⟨rfl, hn⟩ := h.node _ _ _ hn₁ hn₂
          cases hlink : n.isLink with
          | false =>
              rw [walk_next henter₁ hsilent hdots hn₁ hlink] at h₁
              rw [walk_next henter₂ hsilent hdots hn₂ hlink] at h₂
              rw [walk_next henter hsilent hdots hn hlink]
              exact ih h₁ h₂
          | true =>
              obtain ⟨content, perms⟩ := n
              cases content with
              | link target =>
                  rw [walk_link henter₁ hsilent hdots hrest hn₁, Except.ok.injEq] at h₁
                  rw [walk_link henter₂ hsilent hdots hrest hn₂, Except.ok.injEq] at h₂
                  rw [walk_link henter hsilent hdots hrest hn, ← h₁, ← h₂]
                  exact ⟨rfl, rfl⟩
              | file bytes | dir => exact absurd hlink (by simp [Node.isLink])

lemma walkLinks_eq {k : Nat} {l₁ l₂ : Location} (h₁ : e₁.walkLinks false k here names = .ok l₁)
    (h₂ : e₂.walkLinks false k here names = .ok l₂) :
    l₁ = l₂ ∧ e.walkLinks false k here names = .ok l₁ := by
  induction k generalizing here names with
  | zero => rw [walkLinks] at h₁; exact absurd h₁ (by simp)
  | succ k ih =>
      rw [walkLinks] at h₁ h₂ ⊢
      cases hs₁ : e₁.walk false here names with
      | error e => rw [hs₁] at h₁; exact absurd h₁ (by simp)
      | ok s₁ =>
        cases hs₂ : e₂.walk false here names with
        | error e => rw [hs₂] at h₂; exact absurd h₂ (by simp)
        | ok s₂ =>
          obtain ⟨rfl, hs⟩ := h.walk_eq hs₁ hs₂
          rw [hs₁] at h₁
          rw [hs₂] at h₂
          rw [hs]
          cases s₁ with
          | place l =>
              simp only [Except.ok.injEq] at h₁ h₂ ⊢
              exact ⟨h₁.symm.trans h₂, h₁⟩
          | link target dir rest => exact ih h₁ h₂

/-- **A path that has a place in both trees has the same place in both, and in the third one.** -/
lemma resolve?_eq {l₁ l₂ : Location} (h₁ : e₁.resolve? false p = .ok l₁)
    (h₂ : e₂.resolve? false p = .ok l₂) : l₁ = l₂ ∧ e.resolve? false p = .ok l₁ := by
  rw [resolve?] at h₁ h₂ ⊢
  split at h₁
  · exact absurd h₁ (by simp)
  next hp =>
  rw [if_neg hp] at h₂ ⊢
  rw [h.workingDir.1] at h₁
  rw [h.workingDir.2] at h₂
  exact h.walkLinks_eq h₁ h₂

end HoldsShared

/-! ### Entries taken away -/

/-- The tree without the entries at some places. -/
def without (d : Disk) (places : List Location) : Disk :=
  { d with nodes := d.nodes.filter fun n => !places.contains n.1 }

lemma without_nil (d : Disk) : d.without [] = d := by
  have hall : d.nodes.filter (fun n => !([] : List Location).contains n.1) = d.nodes :=
    List.filter_eq_self.mpr fun _ _ => rfl
  rw [without, hall]

/-- Only which places they are matters. -/
lemma without_congr {places' : List Location} (h : ∀ l, l ∈ places ↔ l ∈ places') :
    d.without places = d.without places' := by
  rw [without, without]
  congr 1
  refine List.filter_congr fun entry _ => ?_
  rw [Bool.not_inj_iff, Bool.eq_iff_iff, List.contains_iff_mem, List.contains_iff_mem, h]

lemma erase_without (d : Disk) (places : List Location) (l : Location) :
    (d.without places).erase l = d.without (l :: places) := by
  rw [erase, without, without, List.filter_filter]
  congr 1
  refine List.filter_congr fun entry _ => ?_
  rw [List.contains_cons, Bool.not_or]
  rfl

lemma node?_without (hplaces : [] ∉ places) (l : Location) :
    (d.without places).node? l = if l ∈ places then none else d.node? l := by
  induction places with
  | nil => rw [without_nil, if_neg (by simp)]
  | cons m places ih =>
      obtain ⟨hm, hrest⟩ : [] ≠ m ∧ [] ∉ places := by simpa using hplaces
      rw [← erase_without, node?_erase hm.symm, ih hrest]
      by_cases hl : l = m
      · simp [hl]
      · simp [hl]

/-- An entry of the tree without some places is one of the tree, at another place. -/
lemma node?_of_without (hplaces : [] ∉ places) (hn : (d.without places).node? l = some n) :
    d.node? l = some n ∧ l ∉ places := by
  rw [node?_without hplaces] at hn
  split at hn
  · exact absurd hn (by simp)
  · next hl => exact ⟨hn, hl⟩

lemma holdsShared_of_without (hplaces : [] ∉ places) :
    HoldsShared (d.without places) (d.without places) d :=
  ⟨⟨rfl, rfl⟩, fun _ _ _ hn₁ hn₂ =>
    ⟨Option.some.inj (hn₁.symm.trans hn₂), (node?_of_without hplaces hn₁).1⟩⟩

/-- Nothing new is found in a tree without some entries. -/
lemma find?_of_without (hplaces : [] ∉ places) (hf : (d.without places).find? false p = .ok (l, n)) :
    d.find? false p = .ok (l, n) ∧ l ∉ places := by
  obtain ⟨hl, hn⟩ := find?_eq_ok_iff.mp hf
  obtain ⟨hn', hmem⟩ := node?_of_without hplaces hn
  exact ⟨find?_eq_ok_iff.mpr ⟨((holdsShared_of_without hplaces).resolve?_eq hl hl).2, hn'⟩, hmem⟩

lemma holdsShared_erase (hm : m ≠ []) (hplaces : [] ∉ places) :
    HoldsShared (d.erase m) (d.without places) (d.without (m :: places)) := by
  refine ⟨⟨rfl, rfl⟩, fun l n₁ n₂ hn₁ hn₂ => ?_⟩
  obtain ⟨hn, -⟩ := node?_of_without hplaces hn₂
  rw [← erase_without, node?_erase hm, hn₂]
  rw [node?_erase hm] at hn₁
  by_cases hl : l = m
  · rw [if_pos hl] at hn₁
    exact absurd hn₁ (by simp)
  · rw [if_neg hl] at hn₁ ⊢
    obtain rfl := Option.some.inj (hn₁.symm.trans hn)
    exact ⟨rfl, rfl⟩

/-- **A path that keeps its place whenever one of some entries is gone keeps it when all are.** -/
lemma resolve?_without (hplaces : [] ∉ places) (hl : d.resolve? false p = .ok l)
    (halone : ∀ m ∈ places, (d.erase m).resolve? false p = .ok l) :
    (d.without places).resolve? false p = .ok l := by
  induction places with
  | nil => rwa [without_nil]
  | cons m places ih =>
      obtain ⟨hm, hrest⟩ : [] ≠ m ∧ [] ∉ places := by simpa using hplaces
      have hothers := ih hrest fun m' hm' => halone m' (List.mem_cons_of_mem _ hm')
      exact ((holdsShared_erase hm.symm hrest).resolve?_eq (halone m (by simp)) hothers).2

/-- Files or links stand at the places. -/
def HasFilesAt (d : Disk) (places : List Location) : Prop :=
  ∀ m ∈ places, ∃ n, d.node? m = some n ∧ n.isDir = false

lemma HasFilesAt.nil_not_mem (h : d.HasFilesAt places) : [] ∉ places := by
  intro hmem
  obtain ⟨n, hn, hdir⟩ := h _ hmem
  rw [node?_nil, Option.some.injEq] at hn
  rw [← hn] at hdir
  exact absurd hdir (by simp [Node.isDir])

/-- Whether entries can be removed hangs on directories, which are still there. -/
lemma HasFilesAt.isChangeable_without (h : d.HasFilesAt places) (l : Location) :
    (d.without places).isChangeable l = d.isChangeable l := by
  rw [isChangeable, isChangeable, node?_without h.nil_not_mem]
  by_cases hmem : l.dropLast ∈ places
  · obtain ⟨n, hn, hdir⟩ := h _ hmem
    rw [if_pos hmem, hn]
    simp [hdir]
  · rw [if_neg hmem]

/-- A file is on no other path's way. -/
lemma FilesDiffer.erase (h : d.IsFree l) : FilesDiffer d (d.erase l) := by
  refine ⟨rfl, fun l' => ?_⟩
  rw [node?_erase h.ne_nil]
  by_cases heq : l' = l
  · subst heq
    exact Or.inr ⟨h, Or.inl (by rw [node?_erase h.ne_nil, if_pos rfl])⟩
  · exact Or.inl (if_neg heq)

/-! ### Entries that can be removed -/

/-- The place of the entry that is removed by a path: a file or a link in a directory that can lose
entries. -/
def removes? (d : Disk) (p : Path) : Option Location :=
  match d.find? false p with
  | .ok (l, n) => if !n.isDir && d.isChangeable l then some l else none
  | .error _ => none

lemma removes?_eq_some_iff :
    d.removes? p = some l ↔
      (∃ n, d.find? false p = .ok (l, n) ∧ n.isDir = false) ∧ d.isChangeable l = true := by
  rw [removes?]
  cases d.find? false p with
  | error e => simp
  | ok found =>
      obtain ⟨l', n⟩ := found
      simp only [Option.ite_none_right_eq_some, Bool.and_eq_true, Bool.not_eq_true',
        Option.some.injEq, Except.ok.injEq, Prod.mk.injEq]
      constructor
      · rintro ⟨⟨hdir, hchange⟩, rfl⟩
        exact ⟨⟨n, ⟨rfl, rfl⟩, hdir⟩, hchange⟩
      · rintro ⟨⟨n', ⟨rfl, rfl⟩, hdir⟩, hchange⟩
        exact ⟨⟨hdir, hchange⟩, rfl⟩

/-- **What removing a path does.** -/
lemma remove?_eq_ok_iff {d' : Disk} :
    d.remove? p = .ok d' ↔ ∃ l, d.removes? p = some l ∧ d' = d.erase l := by
  rw [remove?]
  simp only [removes?_eq_some_iff]
  cases hf : d.find? false p with
  | error e => simp
  | ok found =>
      obtain ⟨l, n⟩ := found
      simp only [Except.ok.injEq, Prod.mk.injEq]
      constructor
      · intro h
        split at h
        · exact absurd h (by simp)
        next hchange =>
        split at h
        · exact absurd h (by simp)
        next hdir =>
        rw [Except.ok.injEq] at h
        exact ⟨l, ⟨⟨n, ⟨rfl, rfl⟩, by simpa using hdir⟩, by simpa using hchange⟩, h.symm⟩
      · rintro ⟨l, ⟨⟨n, ⟨rfl, rfl⟩, hdir⟩, hchange⟩, rfl⟩
        rw [if_neg (by simp [hchange]), if_neg (by simp [hdir])]

/-- What is removed is there, and is no directory. -/
lemma exists_node?_of_removes? (hl : d.removes? p = some l) :
    ∃ n, d.node? l = some n ∧ n.isDir = false := by
  obtain ⟨⟨n, hf, hdir⟩, -⟩ := removes?_eq_some_iff.mp hl
  exact ⟨n, (find?_eq_ok_iff.mp hf).2, hdir⟩

lemma resolve?_of_removes? (hl : d.removes? p = some l) : d.resolve? false p = .ok l := by
  obtain ⟨⟨n, hf, -⟩, -⟩ := removes?_eq_some_iff.mp hl
  exact (find?_eq_ok_iff.mp hf).1

namespace HasFilesAt

variable (h : d.HasFilesAt places)

include h

/-- With some files and links gone, nothing can be removed that could not be removed before. -/
lemma removes?_of_without (hl : (d.without places).removes? p = some l) :
    d.removes? p = some l ∧ l ∉ places := by
  obtain ⟨⟨n, hf, hdir⟩, hchange⟩ := removes?_eq_some_iff.mp hl
  obtain ⟨hf', hnew⟩ := find?_of_without h.nil_not_mem hf
  rw [h.isChangeable_without] at hchange
  exact ⟨removes?_eq_some_iff.mpr ⟨⟨n, hf', hdir⟩, hchange⟩, hnew⟩

/-- **What could be removed before can be removed still,** if its path does not need any of the
entries that are gone. -/
lemma removes?_without (hl : d.removes? p = some l) (hnew : l ∉ places)
    (halone : ∀ m ∈ places, (d.erase m).resolve? false p = .ok l) :
    (d.without places).removes? p = some l := by
  obtain ⟨⟨n, hf, hdir⟩, hchange⟩ := removes?_eq_some_iff.mp hl
  obtain ⟨hresolve, hn⟩ := find?_eq_ok_iff.mp hf
  have hthere : (d.without places).node? l = some n := by
    rw [node?_without h.nil_not_mem, if_neg hnew, hn]
  have hplace := resolve?_without h.nil_not_mem hresolve halone
  exact removes?_eq_some_iff.mpr ⟨⟨n, find?_eq_ok_iff.mpr ⟨hplace, hthere⟩, hdir⟩,
    (h.isChangeable_without l).trans hchange⟩

end HasFilesAt

end ImageMigration.Disk
