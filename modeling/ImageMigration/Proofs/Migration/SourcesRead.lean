/-
Deletions and the sources that were read.

A run removes nothing unless the decision allows it, whatever the tree is like and whatever fails;
and the decision knows of every source that was found and could not be read. What it does not know
of are sources that the search did not find, because a directory above them cannot be listed.

* `Disk.keepsEntries_write?`, `Migration.keepsEntries_before_cleanup`: before the last stage nothing
  is removed from any tree, with links or without;
* `Migration.allowed_of_gone`: **what is gone was deleted**, and that was allowed;
* `Migration.WasRead`: what it takes for a source to be read in its turn;
* `Migration.sources_read_of_gone`: a run that removed anything has read every source that it could
  find;
* `Migration.hidden_source_overlooked`: a run may delete an image that a source refers to, if the
  directory of the source cannot be listed.
-/
import ImageMigration.Proofs.Inventory.Complete
import ImageMigration.Proofs.Migration.NoLoss

namespace ImageMigration

open Disk (KeepsEntries pathOf)

/-- A source was read in its turn and understood, and all its references are known where images are
told apart. -/
structure Migration.WasRead (m : Migration) (h : Host) (file : Path) (source : Text)
    (literals : List Literal) : Prop where
  inTurn : ∃ front back, (m.inventory h).codes = front ++ file :: back ∧
    ((front.foldl (indexFile m.parser (m.project h)) (.empty, m.found h)).2.look .read file
      (·.readText? file)).1 = .ok source
  parsed : m.parser.literals? file source = some literals
  known : ∀ literal ∈ literals, ∀ r ∈ literal.references, r.kind = .static →
    (indexUsages m.parser (m.inventory h).codes (m.project h) (m.found h)).1.Covers
      ⟨m.project h, file⟩ r

/-! ### Trees that keep their entries -/

/-- Writing removes nothing. -/
lemma Disk.keepsEntries_write? {d d' : Disk} {p : Path} {bytes : Bytes}
    (h : d.write? p bytes = .ok d') : KeepsEntries d d' := by
  rw [write?] at h
  cases hr : d.resolve? true p with
  | error e => rw [hr] at h; exact absurd h (by simp)
  | ok l =>
      rw [hr] at h
      have hput : ∀ n, d.node? l = none ∨ (∃ n', d.node? l = some n' ∧ n'.isDir = false) →
          KeepsEntries d (d.put l n) := by
        -- the root is a directory, so it is not written
        intro n hcase
        refine KeepsEntries.put ?_ n
        rintro rfl
        rw [node?_nil] at hcase
        rcases hcase with hnone | ⟨n', hn', hdir⟩
        · exact absurd hnone (by simp)
        · rw [Option.some.injEq] at hn'
          rw [← hn'] at hdir
          exact absurd hdir (by decide)
      cases hn : d.node? l with
      | none =>
          simp only [hn] at h
          split at h
          · rw [Except.ok.injEq] at h
            exact h ▸ hput _ (Or.inl hn)
          · exact absurd h (by simp)
      | some n =>
          simp only [hn] at h
          split at h
          · exact absurd h (by simp)
          · next hdir =>
            split at h
            · rw [Except.ok.injEq] at h
              exact h ▸ hput _ (Or.inr ⟨n, hn, by simpa using hdir⟩)
            · exact absurd h (by simp)

/-- Converting removes nothing. -/
lemma keepsEntries_convertEach (c : Converter) (all : List Path) (quality : Nat) (dryRun : Bool)
    (images : List Path) (h : Host) :
    KeepsEntries h.disk (convertEach c all quality dryRun images h).2.disk := by
  induction images generalizing h with
  | nil => exact KeepsEntries.refl _
  | cons image images ih =>
      rw [convertEach]
      refine KeepsEntries.trans ?_ (ih _)
      rcases (convertAmong_cases c all quality dryRun image h).2 with
        ⟨hsame, -⟩ | ⟨-, -, _, _, -, -, -, hwrite⟩
      · rw [hsame]
        exact KeepsEntries.refl _
      · exact Disk.keepsEntries_write? hwrite

/-- Updating sources removes nothing. -/
lemma keepsEntries_foldl_updateFile (parser : ParserOf) (lookup : Lookup) (project : Path)
    (dryRun : Bool) (codes : List Path) (state : UpdateResult × Host) :
    KeepsEntries state.2.disk
      (codes.foldl (updateFile parser lookup project dryRun) state).2.disk := by
  induction codes generalizing state with
  | nil => exact KeepsEntries.refl _
  | cons file codes ih =>
      rw [List.foldl_cons]
      refine KeepsEntries.trans ?_ (ih _)
      obtain ⟨-, ⟨hsame, -⟩ | ⟨_, _, -, -, ⟨hsame, -⟩ | hwrite⟩⟩ :=
        updateFile_cases parser lookup project dryRun state.1 state.2 file
      · rw [hsame]
        exact KeepsEntries.refl _
      · rw [hsame]
        exact KeepsEntries.refl _
      · exact Disk.keepsEntries_write? hwrite

/-! ### Sources in their turn -/

/-- A source that did not become a failure was read and understood. -/
lemma exists_read_of_not_mem_failures {parser : ParserOf} {project file : Path}
    {state : UsageIndex × Host}
    (h : file.relativeTo project ∉ (indexFile parser project state file).1.parseFailures) :
    ∃ source literals, (state.2.look .read file (·.readText? file)).1 = .ok source ∧
      parser.literals? file source = some literals := by
  have hfailed : file.relativeTo project
      ∈ (state.1.addFailure (file.relativeTo project)).parseFailures := by
    simp [UsageIndex.addFailure]
  have hends := indexEnds parser project state.1 state.2 file
  generalize indexFile parser project state file = after at h hends
  rw [Host.look_eq]
  cases hends with
  | unread => exact absurd hfailed h
  | unparsed => exact absurd hfailed h
  | indexed source literals hread hparse => exact ⟨source, literals, hread, hparse⟩

namespace Migration

variable {m : Migration} {h : Host} {l root : Location} {names : List Text} {file : Path}

/-- **Nothing is removed before the last stage,** from no tree. -/
lemma keepsEntries_before_cleanup (m : Migration) (h : Host) :
    KeepsEntries h.disk (m.updated h).2.disk := by
  have hconverted : KeepsEntries h.disk (m.converted h).2.disk := by
    have hkeeps := keepsEntries_convertEach m.converter (m.classified h).1.used m.config.quality
      m.config.dryRun (m.classified h).1.used (m.converting h)
    rwa [disk_converting] at hkeeps
  refine hconverted.trans ?_
  rcases updated_cases m h with ⟨-, -, hsame⟩ | hfold
  · rw [hsame]
    exact KeepsEntries.refl _
  · rw [hfold, ← disk_updating]
    exact keepsEntries_foldl_updateFile m.parser (m.lookup h) (m.project h) m.config.dryRun
      (m.inventory h).codes (.empty, (m.updating h).report .updatingReferences)

/-- **What is gone after a run was deleted**: the run found images, and the decision allowed it. -/
lemma allowed_of_gone (hbefore : (h.disk.node? l).isSome = true)
    (hafter : (m.run h).2.disk.node? l = none) :
    (m.inventory h).images ≠ [] ∧ m.decision h = .allowed := by
  have hkept := keepsEntries_before_cleanup m h l hbefore
  obtain ⟨before, hdisk, -, hrun⟩ := (run_cases m h).1
  constructor
  · intro hnone
    have hclassified : (m.classified h).1.used = [] ∧ (m.classified h).1.unused = [] := by
      rw [classified, hnone]
      exact ⟨rfl, rfl⟩
    rw [(updated_of_no_used hclassified.1).1, hclassified.2, List.map_nil, deleteFiles_nil,
      deleteFiles_nil, hdisk] at hrun
    rw [← hrun, hafter] at hkept
    exact absurd hkept (by simp)
  · by_contra hno
    rw [deleteFiles_of_not_allowed hno, deleteFiles_of_not_allowed hno, hdisk] at hrun
    rw [← hrun, hafter] at hkept
    exact absurd hkept (by simp)

/-- Without failures, every source that was found was read in its turn. -/
lemma exists_wasRead (hmem : file ∈ (m.inventory h).codes)
    (hno : (m.classified h).1.parseFailures = []) :
    ∃ source literals, m.WasRead h file source literals := by
  have hindex : (indexUsages m.parser (m.inventory h).codes (m.project h)
      (m.found h)).1.parseFailures = [] := hno
  have hcovers := covers_of_no_failures hmem hindex
  obtain ⟨front, back, hcodes⟩ := List.append_of_mem hmem
  have hlast : file.relativeTo (m.project h) ∉ (indexFile m.parser (m.project h)
      (front.foldl (indexFile m.parser (m.project h)) (.empty, m.found h)) file).1.parseFailures := by
    intro hfail
    rw [indexUsages, hcodes, List.foldl_append, List.foldl_cons] at hindex
    have hgrows := (foldl_indexFile m.parser (m.project h) back (indexFile m.parser (m.project h)
      (front.foldl (indexFile m.parser (m.project h)) (.empty, m.found h)) file)).2.2
    have hstays := hgrows.parseFailures hfail
    rw [hindex] at hstays
    exact absurd hstays (by simp)
  obtain ⟨source, literals, hlook, hparse⟩ := exists_read_of_not_mem_failures hlast
  have hread : (m.found h).disk.ReadsAs m.parser file source literals := by
    refine ⟨?_, hparse⟩
    rw [← (foldl_indexFile m.parser (m.project h) front (UsageIndex.empty, m.found h)).1]
    generalize (front.foldl (indexFile m.parser (m.project h)) (.empty, m.found h)).2 = host at hlook ⊢
    simp only [Host.look_eq] at hlook
    exact Host.eq_ok_of_answer hlook
  exact ⟨source, literals, ⟨front, back, hcodes, hlook⟩, hparse, hcovers.covers hread⟩

/-- A source that can be listed is found, if anything is. -/
lemma mem_codes_of_leadsToFile (himages : (m.inventory h).images ≠ [])
    (hroot : h.disk.resolve? true (m.project h) = .ok root)
    (hleads : h.disk.LeadsToFile m.config root names)
    (hdepth : ∀ max ∈ m.config.maxDepth, names.length ≤ max)
    (hlisted : ∀ k < names.length, ∃ entries,
      h.disk.list? (pathOf (Listing.place (m.project h) ++ names.take k)) = .ok entries)
    (hcode : (pathOf (Listing.place (m.project h) ++ names)).isCode = true) :
    pathOf (Listing.place (m.project h) ++ names) ∈ (m.inventory h).codes := by
  have hplace : (m.project h).IsPlace := h.disk.isPlace_absoluteDir _
  rcases m.scan_cases h with hs | ⟨-, -, hnone⟩
  · rw [Inventory.scan_eq_ok hs hplace]
    refine mem_filesOf.mpr ⟨?_, hcode⟩
    rw [← hplace.2] at hroot
    have hreaches : h.disk.Reaches m.config (Listing.place (m.project h)) root 0 names :=
      ⟨hroot, hleads, by simpa using hdepth, hlisted⟩
    have hvisit := hreaches.mem_visits hplace.1
    rwa [hplace.2] at hvisit
  · rw [hnone] at himages
    exact absurd rfl himages

/-- **A run that removed anything has read every source that it could find.** Let any entry of the
tree be gone after a run; the tree may have links, and anything may have failed. Let a source lie
below the directory of the project, not too deep and below no ignored directory. If the directories
on the way to it can be listed, it was read in its turn and understood, and the run knew all its
references when it told unused images apart. -/
theorem sources_read_of_gone (hbefore : (h.disk.node? l).isSome = true)
    (hafter : (m.run h).2.disk.node? l = none)
    (hroot : h.disk.resolve? true (m.project h) = .ok root)
    (hleads : h.disk.LeadsToFile m.config root names)
    (hdepth : ∀ max ∈ m.config.maxDepth, names.length ≤ max)
    (hlisted : ∀ k < names.length, ∃ entries,
      h.disk.list? (pathOf (Listing.place (m.project h) ++ names.take k)) = .ok entries)
    (hcode : (pathOf (Listing.place (m.project h) ++ names)).isCode = true) :
    ∃ source literals,
      m.WasRead h (pathOf (Listing.place (m.project h) ++ names)) source literals := by
  obtain ⟨himages, hallowed⟩ := allowed_of_gone hbefore hafter
  obtain ⟨-, -, htracker, -⟩ := decision_eq_allowed hallowed
  exact exists_wasRead (mem_codes_of_leadsToFile himages hroot hleads hdepth hlisted hcode) htracker

/-- A run that removed an image has read the source that refers to it. -/
theorem sources_read_of_gone_of_two :
    let m := toOneByte
    let h := Host.ofDisk twoImages
    let names := ["src".toList, "home.ts".toList]
    (h.disk.node? (Listing.place (publicImage "logo.png".toList))).isSome = true ∧
      (m.run h).2.disk.node? (Listing.place (publicImage "logo.png".toList)) = none ∧
      h.disk.resolve? true (m.project h) = .ok ["repo".toList] ∧
      h.disk.LeadsToFile m.config ["repo".toList] names ∧
      ∃ source literals,
        m.WasRead h (pathOf (Listing.place (m.project h) ++ names)) source literals := by
  intro m h names
  obtain ⟨hscan, hinventory⟩ := inventory_twoImages
  have hbefore : (h.disk.node? (Listing.place (publicImage "logo.png".toList))).isSome = true := by
    decide +kernel
  have hafter : (m.run h).2.disk.node? (Listing.place (publicImage "logo.png".toList)) = none := by
    rw [run_of_scan hscan, found, hinventory]
    decide +kernel
  have hproject : Listing.place (m.project h) = ["repo".toList] ∧
      h.disk.resolve? true (m.project h) = .ok ["repo".toList] := by decide +kernel
  have hleads : h.disk.LeadsToFile m.config ["repo".toList] names :=
    .through (by decide) rfl rfl (.file (by decide) rfl)
  have hlisted : ∀ k < names.length, ∃ entries,
      h.disk.list? (pathOf (Listing.place (m.project h) ++ names.take k)) = .ok entries := by
    rw [hproject.1]
    intro k hk
    have hcases : k = 0 ∨ k = 1 := by
      simp only [names, List.length_cons, List.length_nil] at hk
      omega
    rcases hcases with rfl | rfl
    · exact ⟨_, rfl⟩
    · exact ⟨_, rfl⟩
  have hdepth : ∀ max ∈ m.config.maxDepth, names.length ≤ max := fun max hmax =>
    absurd hmax (show max ∉ (none : Option Nat) by simp)
  refine ⟨hbefore, hafter, hproject.2, hleads, ?_⟩
  exact sources_read_of_gone hbefore hafter hproject.2 hleads hdepth hlisted
    (by rw [hproject.1]; decide)

/-! ### A source in a directory that cannot be listed -/

/-- A project with one image, and with a source that refers to it in a directory without
permissions. -/
def hiddenSource : Disk :=
  let file (text : Text) : Node := ⟨.file text.toUtf8, .all⟩
  { nodes :=
      [(["repo".toList], ⟨.dir, .all⟩),
       (["repo".toList, "public".toList], ⟨.dir, .all⟩),
       (["repo".toList, "public".toList, "logo.png".toList], file "image".toList),
       (["repo".toList, "src".toList], ⟨.dir, .all⟩),
       (["repo".toList, "src".toList, "home.ts".toList], file "let a = 1;\n".toList),
       (["repo".toList, "src".toList, "hidden".toList], ⟨.dir, ⟨false, false, false⟩⟩),
       (["repo".toList, "src".toList, "hidden".toList, "page.ts".toList],
         file "const logo = '/logo.png';\n".toList)]
    workingDir := [] }

/-- **A run may delete an image that a source refers to**: a directory that cannot be listed is
reported in the log and passed over, and the decision does not know of the sources in it. -/
theorem hidden_source_overlooked :
    let m := toOneByte
    let h := Host.ofDisk hiddenSource
    let names := ["src".toList, "hidden".toList, "page.ts".toList]
    h.disk.IsTree ∧ h.disk.resolve? true (m.project h) = .ok ["repo".toList] ∧
      h.disk.LeadsToFile m.config ["repo".toList] names ∧ m.config.maxDepth = none ∧
      (pathOf (Listing.place (m.project h) ++ names)).isCode = true ∧
      Disk.Removed h.disk (m.run h).2.disk (publicImage "logo.png".toList) ∧
      ∀ source literals,
        ¬ m.WasRead h (pathOf (Listing.place (m.project h) ++ names)) source literals := by
  intro m h names
  have hproject : h.disk.resolve? true (m.project h) = .ok ["repo".toList] ∧
      Listing.place (m.project h) = ["repo".toList] ∧ m.project h = ⟨"/repo".toList⟩ := by
    decide +kernel
  have hvisits : (h.disk.visits m.config ⟨"/repo".toList⟩).filterMap Visit.file?
      = [publicImage "logo.png".toList, ⟨"/repo/src/home.ts".toList⟩] := by decide +kernel
  obtain ⟨hscan, hinventory⟩ := @inventory_of_visits m h ⟨"/repo".toList⟩
    [publicImage "logo.png".toList] [⟨"/repo/src/home.ts".toList⟩] hproject.2.2 (by decide +kernel)
    (by rw [hvisits]; decide) (by rw [hvisits]; decide) (by decide) (by decide)
  have hleads : h.disk.LeadsToFile m.config ["repo".toList] names :=
    .through (by decide) rfl rfl (.through (by decide) rfl rfl (.file (by decide) rfl))
  have hremoved : Disk.Removed h.disk (m.run h).2.disk (publicImage "logo.png".toList) := by
    rw [run_of_scan hscan, found, hinventory]
    decide +kernel
  rw [hproject.2.1]
  refine ⟨by decide +kernel, hproject.1, hleads, rfl, by decide, hremoved, ?_⟩
  rintro source literals ⟨⟨front, back, hcodes, -⟩, -, -⟩
  have hmem : pathOf (["repo".toList] ++ names) ∈ (m.inventory h).codes := by
    rw [hcodes]
    simp
  rw [hinventory] at hmem
  exact absurd hmem (by decide)

end Migration

end ImageMigration
