/-
Deleting files, one after the other.

Each deletion meets the tree that those before it have left. It removes one entry or none, and an
entry that it removes could have been removed at the beginning. So at any moment the tree is the
first one without some entries, and the count is their number.

* `deleteFile_eq`: what deleting one file does;
* `Host.Deleting`, `Host.Deleting.step`, `Host.Deleting.run`: **what is gone after part of a list;**
* `filesChanged_deleteFiles`, `node?_deleteFiles`: without links, the entries after a deletion are
  those before, but for files of the list;
* `deleteFiles_fst`: the count is the number of files that are gone;
* `deleteFiles_of_not_allowed`: without permission nothing happens.
-/
import ImageMigration.Cleanup
import ImageMigration.Proofs.Disk.Without
import ImageMigration.Proofs.Host.Answers

namespace ImageMigration

open Disk (FilesChanged)

/-- What removing a file by the path of its place does. -/
lemma Disk.remove?_of_isPlace {d d' : Disk} {p : Path} (hd : d.HasNoLinks) (hp : p.IsPlace)
    (hr : d.remove? p = .ok d') :
    Listing.place p ≠ [] ∧ d' = d.erase (Listing.place p) ∧
      FilesChanged (· = Listing.place p) d d' := by
  obtain ⟨hnames, hpath⟩ := hp
  rw [← hpath] at hr
  obtain ⟨hne, -, herase⟩ := Disk.remove?_pathOf hd hnames hr
  exact ⟨hne, herase, Disk.filesChanged_remove? hd hnames hr⟩

lemma deleteFiles_of_not_allowed {decision : CleanupDecision} (hd : decision ≠ .allowed)
    (paths : List Path) (h : Host) : deleteFiles decision paths h = (0, h) := by
  rw [deleteFiles, if_neg hd]

@[simp] lemma deleteFiles_nil (decision : CleanupDecision) (h : Host) :
    deleteFiles decision [] h = (0, h) := by
  rw [deleteFiles]
  split <;> rfl

/-- What deleting a file does, by the answer of the machine. -/
lemma deleteFile_eq (count : Nat) (h : Host) (path : Path) :
    deleteFile (count, h) path
      = match h.answer .delete path (·.remove? path) with
        | .ok disk => (count + 1, Host.report { h.tick with disk } (.changed .delete path none))
        | .error e => (count, h.tick.reportAll [.notDeleted path e, .failed .delete path e.message])
    := by
  simp only [deleteFile, Host.change_eq]
  cases h.answer .delete path (·.remove? path) <;> rfl

/-! ### A list of files -/

namespace Host

/-- Part of a list was deleted. The entries at some places are gone and were counted; at each of them
stood a file or a link that a path of the list could remove at some moment. -/
structure Deleting (h : Host) (paths : List Path) (places : List Location)
    (state : Nat × Host) : Prop where
  disk : state.2.disk = h.disk.without places
  faults : state.2.faults = h.faults
  nodup : places.Nodup
  count : state.1 = places.length
  listed : ∀ l ∈ places, ∃ p ∈ paths, h.disk.removes? p = some l ∧
    ∃ moment, h.faults moment .delete p = none

namespace Deleting

variable {h : Host} {paths rest : List Path} {places : List Location} {state : Nat × Host}
  {p : Path}

lemma start (h : Host) (paths : List Path) : h.Deleting paths [] (0, h) :=
  ⟨(Disk.without_nil h.disk).symm, rfl, List.nodup_nil, rfl, fun _ hl => absurd hl (by simp)⟩

variable (hd : h.Deleting paths places state)

include hd

lemma hasFilesAt : h.disk.HasFilesAt places := fun m hm => by
  obtain ⟨p, -, hp, -⟩ := hd.listed m hm
  exact Disk.exists_node?_of_removes? hp

lemma node?_eq (l : Location) :
    state.2.disk.node? l = if l ∈ places then none else h.disk.node? l := by
  rw [hd.disk, Disk.node?_without hd.hasFilesAt.nil_not_mem]

/-- **One step**: an entry is removed that is not among those that are gone, or the machine refuses
and the tree stays. -/
lemma step (hp : p ∈ paths) :
    (∃ l, l ∉ places ∧ h.disk.removes? p = some l ∧
        h.Deleting paths (l :: places) (deleteFile state p)) ∨
      (∃ e, state.2.answer .delete p (·.remove? p) = .error e) ∧
        h.Deleting paths places (deleteFile state p) := by
  obtain ⟨count, machine⟩ := state
  rw [deleteFile_eq]
  cases ha : machine.answer .delete p (·.remove? p) with
  | error e => exact Or.inr ⟨⟨e, rfl⟩, hd.disk, hd.faults, hd.nodup, hd.count, hd.listed⟩
  | ok disk =>
      have hdisk : machine.disk = h.disk.without places := hd.disk
      obtain ⟨l, hl, rfl⟩ := Disk.remove?_eq_ok_iff.mp (eq_ok_of_answer ha)
      rw [hdisk] at hl ⊢
      obtain ⟨hl', hnew⟩ := hd.hasFilesAt.removes?_of_without hl
      have hfault : h.faults machine.clock .delete p = none := by
        rw [answer, show machine.faults = h.faults from hd.faults] at ha
        cases hfault : h.faults machine.clock .delete p with
        | none => rfl
        | some e => rw [hfault] at ha; exact absurd ha (by simp)
      refine Or.inl ⟨l, hnew, hl', Disk.erase_without _ _ _, hd.faults,
        List.nodup_cons.mpr ⟨hnew, hd.nodup⟩, ?_, fun l' hmem => ?_⟩
      · rw [List.length_cons]
        exact congrArg (· + 1) hd.count
      · rcases List.mem_cons.mp hmem with rfl | hmem
        · exact ⟨p, hp, hl', _, hfault⟩
        · exact hd.listed l' hmem

/-- **A whole list**: step by step, more entries are gone. -/
lemma run (hrest : ∀ p ∈ rest, p ∈ paths) :
    ∃ places', h.Deleting paths places' (rest.foldl deleteFile state) := by
  induction rest generalizing places state with
  | nil => exact ⟨places, hd⟩
  | cons p rest ih =>
      have hlater : ∀ q ∈ rest, q ∈ paths := fun q hq => hrest q (List.mem_cons_of_mem _ hq)
      rw [List.foldl_cons]
      rcases hd.step (hrest p (by simp)) with ⟨l, -, -, hstep⟩ | ⟨-, hstep⟩
      · exact ih hstep hlater
      · exact ih hstep hlater

end Deleting

lemma exists_deleting (h : Host) (paths : List Path) :
    ∃ places, h.Deleting paths places (deleteFiles .allowed paths h) := by
  rw [deleteFiles, if_pos rfl]
  exact (Deleting.start h paths).run fun p hp => hp

end Host

/-! ### Trees without links -/

section Deletions

variable {h : Host} {paths : List Path} {places : List Location} {state : Nat × Host} {l : Location}

/-- Without links, what is gone stood at the places of files of the list. -/
lemma Host.Deleting.exists_place (hd : h.Deleting paths places state) (hlinks : h.disk.HasNoLinks)
    (hp : ∀ p ∈ paths, p.IsPlace) (hl : l ∈ places) : ∃ p ∈ paths, Listing.place p = l := by
  obtain ⟨p, hmem, hremoves, -⟩ := hd.listed l hl
  obtain ⟨hnames, hpath⟩ := hp p hmem
  have hresolve := Disk.resolve?_of_removes? hremoves
  rw [← hpath] at hresolve
  exact ⟨p, hmem, (Disk.resolve?_pathOf hlinks hnames hresolve).1.symm⟩

/-- **What a deletion changed is gone,** and was a file of the list. -/
lemma node?_deleteFiles (hp : ∀ p ∈ paths, p.IsPlace) (hd : h.disk.HasNoLinks)
    (decision : CleanupDecision) (l : Location) :
    (deleteFiles decision paths h).2.disk.node? l = h.disk.node? l ∨
      ((deleteFiles decision paths h).2.disk.node? l = none ∧ decision = .allowed ∧
        ∃ p ∈ paths, Listing.place p = l) := by
  by_cases hallowed : decision = .allowed
  · subst hallowed
    obtain ⟨places, hdeleting⟩ := h.exists_deleting paths
    rw [hdeleting.node?_eq]
    by_cases hmem : l ∈ places
    · exact Or.inr ⟨if_pos hmem, rfl, hdeleting.exists_place hd hp hmem⟩
    · exact Or.inl (if_neg hmem)
  · rw [deleteFiles_of_not_allowed hallowed]
    exact Or.inl rfl

/-- Deleting files changes nothing but files of the list. -/
lemma filesChanged_deleteFiles (hp : ∀ p ∈ paths, p.IsPlace) (hd : h.disk.HasNoLinks)
    (decision : CleanupDecision) :
    FilesChanged (fun l => ∃ p ∈ paths, Listing.place p = l) h.disk
      (deleteFiles decision paths h).2.disk := by
  by_cases hallowed : decision = .allowed
  · subst hallowed
    obtain ⟨places, hdeleting⟩ := h.exists_deleting paths
    intro l
    rw [hdeleting.node?_eq]
    by_cases hmem : l ∈ places
    · obtain ⟨n, hn, hdir⟩ := hdeleting.hasFilesAt l hmem
      refine Or.inr ⟨hdeleting.exists_place hd hp hmem, fun n' hn' => ?_, fun n' hn' => ?_⟩
      · rw [hn, Option.some.injEq] at hn'
        rwa [← hn']
      · rw [if_pos hmem] at hn'
        exact absurd hn' (by simp)
    · exact Or.inl (if_neg hmem)
  · rw [deleteFiles_of_not_allowed hallowed]
    exact FilesChanged.refl _ _

/-- **The count is the number of files that are gone.** -/
lemma deleteFiles_fst (hp : ∀ p ∈ paths, p.IsPlace) (hnodup : paths.Nodup) (hd : h.disk.HasNoLinks)
    (hpresent : ∀ p ∈ paths, (h.disk.node? (Listing.place p)).isSome = true)
    (decision : CleanupDecision) :
    (deleteFiles decision paths h).1
      = paths.countP fun p =>
        ((deleteFiles decision paths h).2.disk.node? (Listing.place p)).isNone := by
  by_cases hallowed : decision = .allowed
  · subst hallowed
    obtain ⟨places, hdeleting⟩ := h.exists_deleting paths
    have hgone : ∀ p ∈ paths,
        ((deleteFiles .allowed paths h).2.disk.node? (Listing.place p)).isNone = true ↔
          Listing.place p ∈ places := by
      intro p hmem
      rw [hdeleting.node?_eq]
      by_cases hplace : Listing.place p ∈ places
      · simp [hplace]
      · simpa [hplace, Option.isSome_iff_ne_none] using hpresent p hmem
    -- the places that are gone are those of the listed files that are gone
    have hperm : places.Perm ((paths.filter fun p =>
        ((deleteFiles .allowed paths h).2.disk.node? (Listing.place p)).isNone).map
          Listing.place) := by
      refine (List.perm_ext_iff_of_nodup hdeleting.nodup ?_).mpr fun l => ?_
      · refine (hnodup.filter _).map_on fun p hmem q hmem' heq => ?_
        exact (hp p (List.mem_filter.mp hmem).1).eq_of_place_eq
          (hp q (List.mem_filter.mp hmem').1) heq
      · rw [List.mem_map]
        constructor
        · intro hl
          obtain ⟨p, hmem, rfl⟩ := hdeleting.exists_place hd hp hl
          exact ⟨p, List.mem_filter.mpr ⟨hmem, (hgone p hmem).mpr hl⟩, rfl⟩
        · rintro ⟨p, hmem, rfl⟩
          obtain ⟨hmem, hnone⟩ := List.mem_filter.mp hmem
          exact (hgone p hmem).mp hnone
    rw [hdeleting.count, hperm.length_eq, List.length_map, List.countP_eq_length_filter]
  · rw [deleteFiles_of_not_allowed hallowed]
    refine (List.countP_eq_zero.mpr fun p hmem => ?_).symm
    rw [Bool.not_eq_true, Option.isNone_eq_false_iff]
    exact hpresent p hmem

end Deletions

end ImageMigration
