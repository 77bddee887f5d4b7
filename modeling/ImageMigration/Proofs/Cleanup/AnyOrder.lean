/-
Files deleted in any order.

What a list of deletions could remove at the beginning it can remove at its turn, unless the path
leads through a link that is gone by then: in that case it matters which of the two comes first. And
as all else stays, the list may be put in any other order.

* `Host.deletes?`: what the deletion of a path removes, taken alone;
* `Host.LinksApart`: no listed file is reached through a link that the list deletes;
* `Host.Deleting.exists_answer`, `Host.Deleting.run_complete`: then each file is removed at its turn;
* `deleteFiles_anyOrder`: **a list of deletions removes and counts files of the list, each as if it
  were alone, in whatever order**;
* `deleteFiles_order_matters`: a link that the list deletes makes a difference.
-/
import ImageMigration.Proofs.Cleanup.Deletion

namespace ImageMigration

namespace Host

/-- The place of the entry that the deletion of a path removes, taken alone. -/
def deletes? (h : Host) (p : Path) : Option Location :=
  if (h.faults 0 .delete p).isNone then h.disk.removes? p else none

/-- No listed file is reached through a link that the list deletes: with one such link gone, its path
removes the same entry as before. -/
def LinksApart (h : Host) (paths : List Path) : Prop :=
  ∀ p ∈ paths, ∀ q ∈ paths, ∀ l ∈ h.deletes? p, ∀ m ∈ h.deletes? q, l ≠ m →
    (h.disk.node? m).any Node.isLink = true → (h.disk.erase m).removes? p = some l

instance (h : Host) (paths : List Path) : Decidable (h.LinksApart paths) :=
  inferInstanceAs (Decidable (∀ p ∈ paths, ∀ q ∈ paths, ∀ l ∈ h.deletes? p, ∀ m ∈ h.deletes? q,
    l ≠ m → (h.disk.node? m).any Node.isLink = true → (h.disk.erase m).removes? p = some l))

/-- What a deletion did: the entries at some places are gone and were counted, each of them a file or
a link that a path of the list could remove. All other entries are as they were. -/
structure Deletion (h : Host) (paths : List Path) (places : List Location)
    (result : Nat × Host) : Prop where
  nodup : places.Nodup
  count : result.1 = places.length
  listed : ∀ l ∈ places, ∃ p ∈ paths, h.disk.removes? p = some l
  present : ∀ l ∈ places, (h.disk.node? l).isSome = true
  node : ∀ l, result.2.disk.node? l = if l ∈ places then none else h.disk.node? l

variable {h : Host} {paths rest : List Path} {places : List Location} {state : Nat × Host}
  {p : Path} {l m : Location}

/-! ### One file alone -/

lemma deletes?_eq_some_iff :
    h.deletes? p = some l ↔ h.faults 0 .delete p = none ∧ h.disk.removes? p = some l := by
  rw [deletes?, Option.ite_none_right_eq_some, Option.isNone_iff_eq_none]

lemma LinksApart.perm {paths' : List Path} (hapart : h.LinksApart paths)
    (hperm : paths'.Perm paths) : h.LinksApart paths' :=
  fun p hp q hq => hapart p (hperm.mem_iff.mp hp) q (hperm.mem_iff.mp hq)

lemma linksApart_of_hasNoLinks (hd : h.disk.HasNoLinks) (paths : List Path) :
    h.LinksApart paths := by
  intro p _ q _ l _ m _ _ hlink
  obtain ⟨n, hn, hlink⟩ := (Option.any_eq_true _ _).mp hlink
  rw [hd m n hn] at hlink
  exact absurd hlink (by simp)

/-- **With one other entry of the list gone, a path denotes the same place.** -/
lemma LinksApart.resolve?_erase {q : Path} (hapart : h.LinksApart paths) (hp : p ∈ paths)
    (hq : q ∈ paths) (hl : h.deletes? p = some l) (hm : h.deletes? q = some m) (hne : l ≠ m) :
    (h.disk.erase m).resolve? false p = .ok l := by
  have hl' := (deletes?_eq_some_iff.mp hl).2
  obtain ⟨⟨content, perms⟩, hn, hdir⟩ :=
    Disk.exists_node?_of_removes? (deletes?_eq_some_iff.mp hm).2
  cases content with
  | link target =>
      have hlink : (h.disk.node? m).any Node.isLink = true := by rw [hn]; rfl
      exact Disk.resolve?_of_removes? (hapart p hp q hq l hl m hm hne hlink)
  | file bytes =>
      have hfree : h.disk.IsFree m := Or.inr ⟨bytes, perms, hn⟩
      exact (Disk.FilesDiffer.erase hfree).resolve?_eq (Disk.resolve?_of_removes? hl')
  | dir => exact absurd hdir (by simp [Node.isDir])

/-! ### A whole list -/

namespace Deleting

variable (hd : h.Deleting paths places state)

include hd

lemma deletion : h.Deletion paths places state where
  nodup := hd.nodup
  count := hd.count
  listed l hl := by
    obtain ⟨p, hp, hremoves, -⟩ := hd.listed l hl
    exact ⟨p, hp, hremoves⟩
  present l hl := by
    obtain ⟨n, hn, -⟩ := hd.hasFilesAt l hl
    rw [hn]
    rfl
  node := hd.node?_eq

variable (hs : h.faults.IsSteady)

include hs

/-- What is gone was to be removed by a path of the list, taken alone. -/
lemma exists_deletes? (hl : l ∈ places) : ∃ p ∈ paths, h.deletes? p = some l := by
  obtain ⟨p, hp, hremoves, moment, hfault⟩ := hd.listed l hl
  exact ⟨p, hp, deletes?_eq_some_iff.mpr ⟨(hs 0 moment _ _).trans hfault, hremoves⟩⟩

/-- **What would have been removed at the beginning can be removed now,** if it is still there. -/
lemma exists_answer (hapart : h.LinksApart paths) (hp : p ∈ paths) (hl : h.deletes? p = some l)
    (hnew : l ∉ places) : ∃ disk, state.2.answer .delete p (·.remove? p) = .ok disk := by
  obtain ⟨hfault, hremoves⟩ := deletes?_eq_some_iff.mp hl
  have halone : ∀ m ∈ places, (h.disk.erase m).resolve? false p = .ok l := by
    intro m hm
    obtain ⟨q, hq, hm'⟩ := hd.exists_deletes? hs hm
    exact hapart.resolve?_erase hp hq hl hm' fun heq => hnew (heq ▸ hm)
  have hremove := Disk.remove?_eq_ok_iff.mpr
    ⟨l, hd.hasFilesAt.removes?_without hremoves hnew halone, rfl⟩
  refine ⟨(h.disk.without places).erase l, ?_⟩
  rw [answer, hd.faults, hs _ 0, hfault]
  simp only [hd.disk]
  exact hremove

/-- **Each file of a list is removed at its turn,** if it is still there. -/
lemma run_complete (hapart : h.LinksApart paths) (hrest : ∀ p ∈ rest, p ∈ paths) :
    ∃ places', places ⊆ places' ∧ h.Deleting paths places' (rest.foldl deleteFile state) ∧
      ∀ p ∈ rest, ∀ l, h.deletes? p = some l → l ∈ places' := by
  induction rest generalizing places state with
  | nil => exact ⟨places, List.Subset.refl _, hd, fun p hp => absurd hp (by simp)⟩
  | cons p rest ih =>
      have hp := hrest p (by simp)
      have hstep : ∃ places₁, places ⊆ places₁ ∧ h.Deleting paths places₁ (deleteFile state p) ∧
          ∀ l, h.deletes? p = some l → l ∈ places₁ := by
        rcases hd.step hp with ⟨l, -, hl, hd₁⟩ | ⟨⟨e, hrefused⟩, hd₁⟩
        · refine ⟨l :: places, List.subset_cons_self _ _, hd₁, fun l' hl' => ?_⟩
          rw [(deletes?_eq_some_iff.mp hl').2, Option.some.injEq] at hl
          simp [hl]
        · refine ⟨places, List.Subset.refl _, hd₁, fun l hl => ?_⟩
          by_contra hnew
          obtain ⟨disk, hdone⟩ := hd.exists_answer hs hapart hp hl hnew
          rw [hrefused] at hdone
          exact absurd hdone (by simp)
      obtain ⟨places₁, hsub₁, hd₁, hgone₁⟩ := hstep
      obtain ⟨places₂, hsub₂, hd₂, hgone₂⟩ := ih hd₁ fun q hq => hrest q (List.mem_cons_of_mem _ hq)
      rw [List.foldl_cons]
      refine ⟨places₂, List.Subset.trans hsub₁ hsub₂, hd₂, fun q hq l hl => ?_⟩
      rcases List.mem_cons.mp hq with rfl | hq
      · exact hsub₂ (hgone₁ l hl)
      · exact hgone₂ q hq l hl

end Deleting

/-- With links apart, what is gone after a list of deletions is told by the list alone. -/
lemma mem_places_iff (hs : h.faults.IsSteady) (hapart : h.LinksApart paths)
    (hd : h.Deleting paths places (deleteFiles .allowed paths h)) :
    l ∈ places ↔ ∃ p ∈ paths, h.deletes? p = some l := by
  refine ⟨hd.exists_deletes? hs, ?_⟩
  rintro ⟨p, hp, hl⟩
  obtain ⟨places', -, hd', hgone⟩ :=
    (Deleting.start h paths).run_complete hs hapart fun p hp => hp
  have hafter := hd.node?_eq l
  have hafter' := hd'.node?_eq l
  rw [deleteFiles, if_pos rfl, hafter', if_pos (hgone p hp l hl)] at hafter
  obtain ⟨n, hn, -⟩ := Disk.exists_node?_of_removes? (deletes?_eq_some_iff.mp hl).2
  by_contra hno
  rw [if_neg hno, hn] at hafter
  exact absurd hafter (by simp)

end Host

open Host in
/-- **Files are deleted each on its own.** Without permission nothing happens. With it, whatever
fails, the entries at some places are removed, each of them a file or a link that a path of the list
could remove at the beginning; their number is returned, and all else stays. Let what fails not hang
on the moment, and let no listed file be reached through a link that the list deletes. Then these are
the places of all files of the list that could be removed, and the list may be put in any order. -/
theorem deleteFiles_anyOrder (h : Host) (paths : List Path) (decision : CleanupDecision) :
    (decision ≠ .allowed → deleteFiles decision paths h = (0, h)) ∧
      ∃ places, h.Deletion paths places (deleteFiles .allowed paths h) ∧
        (h.faults.IsSteady → h.LinksApart paths →
          (∀ l, l ∈ places ↔ ∃ p ∈ paths, h.deletes? p = some l) ∧
          ∀ paths', paths'.Perm paths →
            (deleteFiles .allowed paths' h).1 = (deleteFiles .allowed paths h).1 ∧
            (deleteFiles .allowed paths' h).2.disk = (deleteFiles .allowed paths h).2.disk) := by
  refine ⟨fun hne => deleteFiles_of_not_allowed hne paths h, ?_⟩
  obtain ⟨places, hd⟩ := h.exists_deleting paths
  refine ⟨places, hd.deletion, fun hs hapart =>
    ⟨fun l => mem_places_iff hs hapart hd, fun paths' hperm => ?_⟩⟩
  obtain ⟨places', hd'⟩ := h.exists_deleting paths'
  have hsame : ∀ l, l ∈ places' ↔ l ∈ places := fun l => by
    rw [mem_places_iff hs (hapart.perm hperm) hd', mem_places_iff hs hapart hd]
    constructor <;> rintro ⟨p, hp, hl⟩
    · exact ⟨p, hperm.mem_iff.mp hp, hl⟩
    · exact ⟨p, hperm.mem_iff.mpr hp, hl⟩
  constructor
  · rw [hd'.count, hd.count]
    exact ((List.perm_ext_iff_of_nodup hd'.nodup hd.nodup).mpr hsame).length_eq
  · rw [hd'.disk, hd.disk, Disk.without_congr hsame]

/-- An album with a link to its directory, a link to its image, and a directory that is locked. -/
def album : Disk :=
  { nodes :=
      [(["repo".toList], ⟨.dir, .all⟩),
       (["repo".toList, "assets".toList], ⟨.dir, .all⟩),
       (["repo".toList, "assets".toList, "a.png".toList], ⟨.file ⟨#[1]⟩, .all⟩),
       (["repo".toList, "all.png".toList], ⟨.link ⟨"assets".toList⟩, .all⟩),
       (["repo".toList, "logo.png".toList], ⟨.link ⟨"assets/a.png".toList⟩, .all⟩),
       (["repo".toList, "locked".toList], ⟨.dir, ⟨true, false, true⟩⟩),
       (["repo".toList, "locked".toList, "b.png".toList], ⟨.file ⟨#[2]⟩, .all⟩)]
    workingDir := [] }

/-- Of a link, its image, the image again by way of a directory that is not listed, a directory, a
file that is missing and one that is locked, two are removed from either end of the list. -/
theorem deleteFiles_anyOrder_of_album :
    let h := Host.ofDisk album
    let paths : List Path :=
      [⟨"/repo/logo.png".toList⟩, ⟨"/repo/missing.png".toList⟩, ⟨"/repo/assets/a.png".toList⟩,
       ⟨"/repo/assets".toList⟩, ⟨"/repo/locked/b.png".toList⟩, ⟨"/repo/all.png/a.png".toList⟩]
    h.faults.IsSteady ∧ h.LinksApart paths ∧
      ∃ places, h.Deletion paths places (deleteFiles .allowed paths h) ∧ places.length = 2 ∧
        (∀ l, l ∈ places ↔ ∃ p ∈ paths, h.deletes? p = some l) ∧
        (deleteFiles .allowed paths.reverse h).1 = 2 ∧
        (deleteFiles .allowed paths.reverse h).2.disk = (deleteFiles .allowed paths h).2.disk := by
  intro h paths
  have hs : h.faults.IsSteady := fun _ _ _ _ => rfl
  have hapart : h.LinksApart paths := by decide +kernel
  have hcount : (deleteFiles .allowed paths h).1 = 2 := by decide +kernel
  obtain ⟨-, places, hdeletion, hall⟩ := deleteFiles_anyOrder h paths .allowed
  obtain ⟨hplaces, horders⟩ := hall hs hapart
  obtain ⟨hnumber, hdisk⟩ := horders _ (List.reverse_perm paths)
  exact ⟨hs, hapart, places, hdeletion, hdeletion.count.symm.trans hcount, hplaces,
    hnumber.trans hcount, hdisk⟩

/-- **A link that the list deletes makes a difference**: after it is gone, a file that is listed by way
of it is not found any more. In the other order both are removed. -/
theorem deleteFiles_order_matters :
    let h := Host.ofDisk album
    let link : Path := ⟨"/repo/all.png".toList⟩
    let file : Path := ⟨"/repo/all.png/a.png".toList⟩
    h.deletes? link = some ["repo".toList, "all.png".toList] ∧
      h.deletes? file = some ["repo".toList, "assets".toList, "a.png".toList] ∧
      (deleteFiles .allowed [link, file] h).1 = 1 ∧
      ((deleteFiles .allowed [link, file] h).2.disk.node?
        ["repo".toList, "assets".toList, "a.png".toList]).isSome = true ∧
      (deleteFiles .allowed [file, link] h).1 = 2 ∧
      (deleteFiles .allowed [file, link] h).2.disk.node?
        ["repo".toList, "assets".toList, "a.png".toList] = none := by
  decide +kernel

end ImageMigration
