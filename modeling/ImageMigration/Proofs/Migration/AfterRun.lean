/-
The tree after a run.

A run leaves a tree with the same directories, where every source is in its place, and every image
that was not deleted is as it was. So a second run searches the same project, finds all sources again
and no image that the first one did not find.

* `Migration.After`: a machine with the tree that a run left;
* `Migration.exists_changes_run`: a run as a list of changes of files;
* `After.isTree`, `After.project_eq`, `After.sameDirectories`: the tree as a whole;
* `After.node?_of_isImage`, `After.mem_images`, `After.mem_codes_iff`: **what is found again**;
* `Migration.node?_run_eq_none_iff`: which images are deleted.
-/
import ImageMigration.Proofs.Cleanup.Removable
import ImageMigration.Proofs.Host.Replay
import ImageMigration.Proofs.Inventory.Again
import ImageMigration.Proofs.Migration.Books
import ImageMigration.Proofs.Migration.ChangeLog

namespace ImageMigration.Migration

open Disk (FilesChanged SameDirectories)

/-- A machine with the tree that a run left, at any moment. The same fails as before. -/
structure After (m : Migration) (h h' : Host) : Prop where
  disk : h'.disk = (m.run h).2.disk
  faults : h'.faults = h.faults

variable {m : Migration} {h h' : Host} {p file : Path} {l : Location} {n : Node}

/-! ### Inventories -/

/-- What a run finds is what its search comes across, if the directory of the project is there. -/
lemma inventory_eq (m : Migration) (h : Host) :
    m.inventory h = if h.disk.isDir (m.project h)
      then .ofVisits (h.disk.visits m.config (m.project h)) else .empty := by
  have hproject : h.disk.absoluteDir (m.project h) = m.project h :=
    Disk.absoluteDir_of_isPlace (h.disk.isPlace_absoluteDir _)
  rw [inventory, scan, Inventory.scan, ← project, hproject, Disk.visitsFrom]
  cases h.disk.isDir (m.project h) <;> rfl

lemma mem_images_iff :
    p ∈ (m.inventory h).images ↔ h.disk.isDir (m.project h) = true ∧
      .file p ∈ h.disk.visits m.config (m.project h) ∧ p.isImage = true := by
  rw [inventory_eq]
  split
  · next hdir => rw [Inventory.ofVisits, mem_filesOf, hdir, eq_self, true_and]
  · next hdir => simp [Inventory.empty, hdir]

lemma mem_codes_iff :
    p ∈ (m.inventory h).codes ↔ h.disk.isDir (m.project h) = true ∧
      .file p ∈ h.disk.visits m.config (m.project h) ∧ p.isCode = true := by
  rw [inventory_eq]
  split
  · next hdir => rw [Inventory.ofVisits, mem_filesOf, hdir, eq_self, true_and]
  · next hdir => simp [Inventory.empty, hdir]

/-! ### Changes of a run -/

lemma faults_updated (m : Migration) (h : Host) : (m.updated h).2.faults = h.faults :=
  ((m.precedes_converting h).trans ((m.precedes_converted h).trans
    ((m.precedes_updating h).trans (m.precedes_updated h)))).faults

section Run

variable (hd : h.disk.IsTree) (hwebp : m.converter.extension = "webp".toList)

include hwebp

lemma isNewExtension_of_webp : IsNewExtension m.converter.extension := by
  rw [hwebp]
  exact isNewExtension_webp

include hd

/-- **A run is a list of changes** at places of files, that deletes images only. -/
lemma exists_changes_run :
    ∃ cs : List Mutation, Mutation.replay? cs h.disk = .ok (m.run h).2.disk ∧
      (∀ c ∈ cs, c.path.IsPlace) ∧ ∀ p, .delete p ∈ cs → p ∈ (m.inventory h).images := by
  obtain ⟨writes, updates, gone, hmakes, hperforms⟩ :=
    performs_run hd (isNewExtension_of_webp hwebp)
  refine ⟨_, hperforms.replay?_eq, fun c hc => (mayChange_of_mem hd hwebp hmakes hc).isPlace, ?_⟩
  intro p hp
  rw [List.mem_append, List.mem_append] at hp
  rcases hp with (hwrite | hupdate) | hdelete
  · cases hdry : m.config.dryRun with
    | true =>
        rw [hmakes.writes_dry hdry] at hwrite
        exact absurd hwrite (by simp)
    | false =>
        obtain ⟨o, -, -, bytes, -, heq⟩ := exists_mem_of_forall₂ (hmakes.writes hdry) hwrite
        exact absurd heq (by simp)
  · obtain ⟨files, -, -, hupdates⟩ := hmakes.updates
    obtain ⟨file, -, source, literals, -, -, heq⟩ := exists_mem_of_forall₂ hupdates hupdate
    exact absurd heq (by simp)
  · obtain ⟨q, hq, heq⟩ := List.mem_map.mp hdelete
    rw [Mutation.delete.injEq] at heq
    exact heq ▸ hmakes.gone_images hq

/-- A run leaves directories, and everything that it does not delete keeps its permissions. -/
lemma exists_node?_run (hkept : ∀ p ∈ (m.inventory h).images, Listing.place p ≠ l)
    (hn : h.disk.node? l = some n) :
    ∃ n', (m.run h).2.disk.node? l = some n' ∧ n'.permissions = n.permissions := by
  obtain ⟨cs, hreplay, hplaces, hdeletes⟩ := exists_changes_run hd hwebp
  exact Mutation.exists_node?_replay? hplaces hreplay hd.hasNoLinks
    (fun p hp => hkept p (hdeletes p hp)) hn

/-! ### Deletions -/

/-- **Originals and unused images are gone if they can be deleted,** once that is allowed. -/
lemma node?_run_eq_none_iff (hs : h.faults.IsSteady) (hallowed : m.decision h = .allowed)
    (hp : (∃ o ∈ m.successful h, o.image = p) ∨ p ∈ (m.classified h).1.unused) :
    (m.run h).2.disk.node? (Listing.place p) = none ↔ h.Removes p := by
  have he := isNewExtension_of_webp hwebp
  obtain ⟨before, hbefore, hfaults, hafter⟩ := (run_cases m h).1
  have hsteady : before.faults = h.faults := hfaults.trans (faults_updated m h)
  have hchanged := filesChanged_updated hd he (m := m)
  rw [← hbefore] at hchanged
  have hmem : ∀ q ∈ (m.successful h).map Outcome.image ++ (m.classified h).1.unused,
      (∃ o ∈ m.successful h, o.image = q) ∨ q ∈ (m.classified h).1.unused := by
    intro q hq
    exact (List.mem_append.mp hq).imp (fun ho => List.mem_map.mp ho) id
  have hfiles : ∀ q ∈ (m.successful h).map Outcome.image ++ (m.classified h).1.unused,
      before.disk.HoldsFile q := by
    intro q hq
    obtain ⟨-, ⟨hplace, hconcat, hnode⟩, hi⟩ := holdsFile_of_deleted hd (hmem q hq)
    refine ⟨hplace, hconcat, ?_⟩
    rwa [hbefore, node?_updated_of_isImage hd he hplace hi]
  rw [hafter, hallowed, deleteFiles_append,
    node?_deleteFiles_eq_none_iff (by rw [hsteady]; exact hs)
      (hchanged.hasNoLinks hd.hasNoLinks) hfiles]
  · exact Host.removes_congr hsteady hchanged
  · exact List.mem_append.mpr (hp.imp (fun ho => List.mem_map.mpr ho) id)

end Run

/-! ### A second run -/

namespace After

variable (hafter : m.After h h') (hd : h.disk.IsTree)
  (hwebp : m.converter.extension = "webp".toList)

include hafter hd hwebp

lemma isTree : h'.disk.IsTree := by
  obtain ⟨cs, hreplay, hplaces, -⟩ := exists_changes_run (m := m) hd hwebp
  rw [hafter.disk]
  exact Mutation.isTree_replay? hplaces hreplay hd

/-- Both runs search the same directory. -/
lemma project_eq : m.project h' = m.project h := by
  obtain ⟨cs, hreplay, hplaces, -⟩ := exists_changes_run (m := m) hd hwebp
  rw [project, project, Disk.absoluteDir, Disk.absoluteDir, hafter.disk,
    Mutation.workingDir_replay? hplaces hreplay hd.hasNoLinks]

/-- The trees differ in files, where they differ. -/
lemma filesChanged :
    FilesChanged (fun l => h'.disk.node? l ≠ h.disk.node? l) h.disk h'.disk := by
  obtain ⟨cs, hreplay, hplaces, -⟩ := exists_changes_run (m := m) hd hwebp
  rw [← hafter.disk] at hreplay
  intro l
  rcases Mutation.filesChanged_replay? hd.hasNoLinks hplaces hreplay l with hsame | ⟨-, hrest⟩
  · exact Or.inl hsame
  · by_cases hsame : h'.disk.node? l = h.disk.node? l
    · exact Or.inl hsame
    · exact Or.inr ⟨hsame, hrest⟩

lemma sameDirectories : SameDirectories h.disk h'.disk :=
  (hafter.filesChanged hd hwebp).sameDirectories

/-- **An image is as before, or gone.** -/
lemma node?_of_isImage (hp : p.IsPlace) (hi : p.isImage = true) :
    h'.disk.node? (Listing.place p) = h.disk.node? (Listing.place p) ∨
      h'.disk.node? (Listing.place p) = none := by
  have he := isNewExtension_of_webp hwebp
  rw [hafter.disk]
  rcases node?_run hd he (Listing.place p) (m := m) with hsame | ⟨hnone, -⟩
  · exact Or.inl (hsame.trans (node?_updated_of_isImage hd he hp hi))
  · exact Or.inr hnone

/-- An image that a second run finds is as it was. -/
lemma node?_of_mem_images (hp : p ∈ (m.inventory h').images) :
    h'.disk.node? (Listing.place p) = h.disk.node? (Listing.place p) := by
  obtain ⟨hf, hi⟩ := holdsFile_of_mem_images (hafter.isTree hd hwebp) hp
  obtain ⟨bytes, perms, hnode⟩ := hf.node
  refine (hafter.node?_of_isImage hd hwebp hf.isPlace hi).resolve_right ?_
  rw [hnode]
  exact Option.some_ne_none _

/-- Whether the directory of the project is there does not change. -/
lemma isDir_project : h'.disk.isDir (m.project h) = true ↔ h.disk.isDir (m.project h) = true := by
  have hd' := hafter.isTree hd hwebp
  have hsame := hafter.sameDirectories hd hwebp
  obtain ⟨hnames, hpath⟩ : (m.project h).IsPlace := h.disk.isPlace_absoluteDir _
  rw [← hpath]
  exact ⟨hsame.symm.isDir_pathOf hd' hd hnames, hsame.isDir_pathOf hd hd' hnames⟩

/-- **A second run finds no image that the first one did not find.** -/
lemma mem_images (hp : p ∈ (m.inventory h').images) : p ∈ (m.inventory h).images := by
  have hd' := hafter.isTree hd hwebp
  have hnode := hafter.node?_of_mem_images hd hwebp hp
  obtain ⟨⟨hplace, hconcat, hfile⟩, hi⟩ := holdsFile_of_mem_images hd' hp
  rw [mem_images_iff, hafter.project_eq hd hwebp, hafter.isDir_project hd hwebp] at hp
  refine mem_images_iff.mpr ⟨hp.1, ?_, hi⟩
  exact Disk.mem_visits_of_sameDirectories (hafter.sameDirectories hd hwebp).symm hd' hd
    (h.disk.isPlace_absoluteDir _) hp.2.1 ⟨hplace, hconcat, by rwa [← hnode]⟩

/-- A source of the first run is there, with the permissions that it had. -/
lemma exists_node?_of_mem_codes (hfile : file ∈ (m.inventory h).codes) {bytes : Bytes}
    {perms : Permissions} (hn : h.disk.node? (Listing.place file) = some ⟨.file bytes, perms⟩) :
    ∃ bytes', h'.disk.node? (Listing.place file) = some ⟨.file bytes', perms⟩ := by
  obtain ⟨hf, hcode⟩ := holdsFile_of_mem_codes hd hfile
  have hkept : ∀ p ∈ (m.inventory h).images, Listing.place p ≠ Listing.place file := by
    intro p hp heq
    obtain ⟨hf', hi⟩ := holdsFile_of_mem_images hd hp
    rw [hf'.isPlace.eq_of_place_eq hf.isPlace heq, Path.not_isImage_of_isCode hcode] at hi
    exact absurd hi (by simp)
  obtain ⟨⟨content, perms'⟩, hnode, hperms⟩ := exists_node?_run hd hwebp hkept hn
  rw [← hafter.disk] at hnode
  obtain rfl : perms' = perms := hperms
  rcases hafter.filesChanged hd hwebp (Listing.place file) with hsame | ⟨-, -, hbytes⟩
  · exact ⟨bytes, hsame.trans hn⟩
  · obtain ⟨bytes', rfl⟩ : ∃ bytes', content = .file bytes' := hbytes _ hnode
    exact ⟨bytes', hnode⟩

/-- A source that was read can be read again. -/
lemma read?_of_mem_codes (hfile : file ∈ (m.inventory h).codes) {bytes bytes' : Bytes}
    {perms : Permissions} (hread : h.disk.read? file = .ok bytes)
    (hn : h'.disk.node? (Listing.place file) = some ⟨.file bytes', perms⟩) :
    h'.disk.read? file = .ok bytes' := by
  obtain ⟨hf, -⟩ := holdsFile_of_mem_codes hd hfile
  obtain ⟨l, n, hplace⟩ := hf.concat
  have hwhere : Disk.pathOf (l ++ [n]) = file := hplace ▸ hf.isPlace.2
  have hnames : AreNames (l ++ [n]) := hplace ▸ hf.isPlace.1
  rw [← hwhere, Disk.read?_eq_ok_iff hd.hasNoLinks hnames] at hread
  obtain ⟨hopens, perms', hnode, hallowed⟩ := hread
  rw [← hwhere, Disk.read?_eq_ok_iff (hafter.isTree hd hwebp).hasNoLinks hnames]
  rw [← hplace] at hnode ⊢
  obtain ⟨bytes'', hnode'⟩ := hafter.exists_node?_of_mem_codes hd hwebp hfile hnode
  rw [hn, Option.some.injEq, Node.mk.injEq] at hnode'
  exact ⟨(hafter.filesChanged hd hwebp).opens_iff.mpr hopens, perms, hn, hnode'.2 ▸ hallowed⟩

/-- **A second run finds all sources again,** and no others. -/
lemma mem_codes_iff : file ∈ (m.inventory h').codes ↔ file ∈ (m.inventory h).codes := by
  have he := isNewExtension_of_webp hwebp
  have hd' := hafter.isTree hd hwebp
  have hsame := hafter.sameDirectories hd hwebp
  have hproject : (m.project h).IsPlace := h.disk.isPlace_absoluteDir _
  constructor
  · intro hmem
    obtain ⟨⟨hplace, hconcat, hfile⟩, hcode⟩ := holdsFile_of_mem_codes hd' hmem
    by_contra hno
    -- a run changes no source that it did not find
    have hnode : h'.disk.node? (Listing.place file) = h.disk.node? (Listing.place file) := by
      have himage := Path.not_isImage_of_isCode hcode
      rw [hafter.disk, node?_run_of_not_isImage hd he hplace himage]
      refine (filesChanged_updated hd he).node?_eq ?_
      rintro (htarget | ⟨q, hq, heq⟩)
      · exact not_isTarget_place hplace (Or.inr hcode) htarget
      · exact hno ((hplace.eq_of_place_eq (holdsFile_of_mem_codes hd hq).1.isPlace heq) ▸ hq)
    rw [Migration.mem_codes_iff, hafter.project_eq hd hwebp, hafter.isDir_project hd hwebp] at hmem
    refine hno (Migration.mem_codes_iff.mpr ⟨hmem.1, ?_, hcode⟩)
    exact Disk.mem_visits_of_sameDirectories hsame.symm hd' hd hproject hmem.2.1
      ⟨hplace, hconcat, by rwa [← hnode]⟩
  · intro hmem
    obtain ⟨⟨hplace, hconcat, bytes, perms, hnode⟩, hcode⟩ := holdsFile_of_mem_codes hd hmem
    obtain ⟨bytes', hnode'⟩ := hafter.exists_node?_of_mem_codes hd hwebp hmem hnode
    rw [Migration.mem_codes_iff] at hmem
    refine Migration.mem_codes_iff.mpr ?_
    rw [hafter.project_eq hd hwebp, hafter.isDir_project hd hwebp]
    exact ⟨hmem.1, Disk.mem_visits_of_sameDirectories hsame hd hd' hproject hmem.2.1
      ⟨hplace, hconcat, bytes', perms, hnode'⟩, hcode⟩

/-- An image that a second run finds is read as by the first one. -/
lemma read?_of_mem_images (hp : p ∈ (m.inventory h').images) :
    h'.disk.read? p = h.disk.read? p := by
  have hnode := hafter.node?_of_mem_images hd hwebp hp
  obtain ⟨hf, hi⟩ := holdsFile_of_mem_images hd (hafter.mem_images hd hwebp hp)
  rw [← hf.isPlace.2]
  exact Disk.read?_congr hd.hasNoLinks (hafter.isTree hd hwebp).hasNoLinks hf.isPlace.1
    (hf.node?_take_eq hd (hafter.filesChanged hd hwebp) fun hne => hne hnode)

/-- What can be deleted in one run can be deleted in the other. -/
lemma removes_iff : h'.Removes p ↔ h.Removes p :=
  Host.removes_congr hafter.faults (hafter.filesChanged hd hwebp)

end After

end ImageMigration.Migration
