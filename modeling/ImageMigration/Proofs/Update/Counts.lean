/-
What both passes over the sources count.

A file is visited once in each pass. It cannot be read, cannot be written, or has been updated, and
at most one of these is counted; whether it can be read is the same in both passes, since no
conversion and no update of another file touches it.

* `UpdateResult.counted`: the files that a result counts; `counted_foldl_updateFile`: at most one
  for each file;
* `Host.isUnreadable`: whether a file cannot be read or understood at the moment;
* `parseFailures_indexUsages`, `parseFailures_foldl_updateFile`: **both passes tell of the same
  unreadable files.**
-/
import ImageMigration.Proofs.Migration.Preview

namespace ImageMigration

open Disk (FilesChanged)

/-- The number of files that could not be read, could not be written, or were updated. -/
def UpdateResult.counted (r : UpdateResult) : Nat :=
  r.updated + r.parseFailures.length + r.writeFailures.length

/-- Whether a file cannot be read or understood at this moment. -/
def Host.isUnreadable (h : Host) (parser : ParserOf) (file : Path) : Bool :=
  match h.answer .read file (·.readText? file) with
  | .error _ => true
  | .ok source => (parser.literals? file source).isNone

section Counts

variable {parser : ParserOf} {lookup : Lookup} {project file : Path} {codes : List Path}
  {dryRun : Bool} {h h' : Host} {places : Location → Prop}

/-! ### One file -/

lemma noteUnedited_fst (project file : Path) (plan : Plan) (result : UpdateResult) (h : Host) :
    (noteUnedited project file plan result h).1.counted = result.counted ∧
      (noteUnedited project file plan result h).1.parseFailures = result.parseFailures := by
  rw [noteUnedited]
  split <;> exact ⟨rfl, rfl⟩

lemma writeEdits_fst (project file : Path) (source : Text) (plan : Plan) (result : UpdateResult)
    (h : Host) :
    (writeEdits project file source plan result h).1.counted = result.counted + 1 ∧
      (writeEdits project file source plan result h).1.parseFailures = result.parseFailures := by
  have hends := writeEnds project file source plan result h
  generalize writeEdits project file source plan result h = after at hends ⊢
  cases hends with
  | unwritable =>
      refine ⟨?_, rfl⟩
      simp only [UpdateResult.counted, List.length_append, List.length_singleton]
      omega
  | written =>
      refine ⟨?_, rfl⟩
      simp only [UpdateResult.counted]
      omega

/-- A plan is counted once at most, and no plan is a failure to read. -/
lemma carryOut_fst (project file : Path) (source : Text) (plan : Plan) (dryRun : Bool)
    (result : UpdateResult) (h : Host) :
    (carryOut project file source plan dryRun result h).1.counted ≤ result.counted + 1 ∧
      (carryOut project file source plan dryRun result h).1.parseFailures
        = result.parseFailures := by
  obtain ⟨hcounted, hfailures⟩ := noteUnedited_fst project file plan result h
  have hends := carryOutEnds project file source plan dryRun result h
  generalize noteUnedited project file plan result h = noted at hcounted hfailures hends
  generalize carryOut project file source plan dryRun result h = after at hends ⊢
  cases hends with
  | untouched => exact ⟨Nat.le_succ_of_le (Nat.le_of_eq hcounted), hfailures⟩
  | previewed =>
      refine ⟨?_, hfailures⟩
      simp only [UpdateResult.counted] at hcounted ⊢
      omega
  | written =>
      obtain ⟨hwritten, hsame⟩ := writeEdits_fst project file source plan noted.1 noted.2
      exact ⟨by omega, hsame.trans hfailures⟩

/-- **A file is counted once at most**, and as unreadable if it is. -/
lemma updateFile_fst (parser : ParserOf) (lookup : Lookup) (project : Path) (dryRun : Bool)
    (result : UpdateResult) (h : Host) (file : Path) :
    (updateFile parser lookup project dryRun (result, h) file).1.counted ≤ result.counted + 1 ∧
      (updateFile parser lookup project dryRun (result, h) file).1.parseFailures
        = result.parseFailures ++
          if h.isUnreadable parser file then [file.relativeTo project] else [] := by
  have hfailed : (result.addFailure (file.relativeTo project)).counted ≤ result.counted + 1 := by
    simp only [UpdateResult.counted, UpdateResult.addFailure, List.length_append,
      List.length_singleton]
    omega
  have hends := updateEnds parser lookup project dryRun result h file
  rw [Host.isUnreadable]
  generalize updateFile parser lookup project dryRun (result, h) file = after at hends ⊢
  cases hends with
  | unread e hread => exact ⟨hfailed, by simp [hread, UpdateResult.addFailure]⟩
  | unparsed source hread hparse =>
      exact ⟨hfailed, by simp [hread, hparse, UpdateResult.addFailure]⟩
  | planned source literals hread hparse =>
      obtain ⟨hcounted, hsame⟩ := carryOut_fst project file source
        (Plan.ofLiterals lookup ⟨project, file⟩ source literals) dryRun result
        (h.tick.reportAll (literals.flatMap (planEvents lookup ⟨project, file⟩ source)))
      exact ⟨hcounted, by simpa [hread, hparse] using hsame⟩

lemma parseFailures_foldl_addReference (site : Site) (references : List Reference)
    (index : UsageIndex) :
    (references.foldl (UsageIndex.addReference site) index).parseFailures
      = index.parseFailures := by
  induction references generalizing index with
  | nil => rfl
  | cons r references ih =>
      rw [List.foldl_cons, ih, UsageIndex.addReference]
      cases r.kind <;> rfl

lemma parseFailures_indexFile (parser : ParserOf) (project : Path) (index : UsageIndex) (h : Host)
    (file : Path) :
    (indexFile parser project (index, h) file).1.parseFailures
      = index.parseFailures ++
        if h.isUnreadable parser file then [file.relativeTo project] else [] := by
  have hends := indexEnds parser project index h file
  rw [Host.isUnreadable]
  generalize indexFile parser project (index, h) file = after at hends ⊢
  cases hends with
  | unread e hread => simp [hread, UsageIndex.addFailure]
  | unparsed source hread hparse => simp [hread, hparse, UsageIndex.addFailure]
  | indexed source literals hread hparse =>
      simp [hread, hparse, parseFailures_foldl_addReference]

/-! ### All files -/

/-- At most one for each file. -/
lemma counted_foldl_updateFile (codes : List Path) (state : UpdateResult × Host) :
    (codes.foldl (updateFile parser lookup project dryRun) state).1.counted
      ≤ state.1.counted + codes.length := by
  induction codes generalizing state with
  | nil => exact Nat.le_refl _
  | cons file codes ih =>
      have hfirst : (updateFile parser lookup project dryRun state file).1.counted
          ≤ state.1.counted + 1 :=
        (updateFile_fst parser lookup project dryRun state.1 state.2 file).1
      have hrest := ih (updateFile parser lookup project dryRun state file)
      rw [List.foldl_cons, List.length_cons]
      omega

/-- A file that did not change is unreadable later if it is now. -/
lemma Host.Mirrors.isUnreadable_eq (hm : h.Mirrors places h') (hf : h.disk.HoldsFile file)
    (hout : ¬ places (Listing.place file)) :
    h'.isUnreadable parser file = h.isUnreadable parser file := by
  have htext : h'.disk.readText? file = h.disk.readText? file := by
    rw [Disk.readText?, Disk.readText?, Disk.read?_eq_of_find? (hm.find?_eq hf hout)]
  have hread : h'.answer .read file (·.readText? file) = h.answer .read file (·.readText? file) :=
    Host.answer_eq hm.steady hm.faults htext
  rw [Host.isUnreadable, Host.isUnreadable, hread]

/-- The files that a pass tells of, one more in front or not. -/
lemma filter_map_cons (file : Path) (codes : List Path) (p : Path → Bool) (project : Path) :
    ((file :: codes).filter p).map (·.relativeTo project)
      = (if p file then [file.relativeTo project] else []) ++
        (codes.filter p).map (·.relativeTo project) := by
  cases hp : p file <;> simp [hp]

/-- The first pass tells of the unreadable files in their order. -/
lemma parseFailures_indexUsages (hs : h.faults.IsSteady) (codes : List Path) :
    (indexUsages parser codes project h).1.parseFailures
      = (codes.filter (h.isUnreadable parser)).map (·.relativeTo project) := by
  have hall : ∀ state : UsageIndex × Host, state.2.disk = h.disk → state.2.faults = h.faults →
      (codes.foldl (indexFile parser project) state).1.parseFailures
        = state.1.parseFailures ++
          (codes.filter (h.isUnreadable parser)).map (·.relativeTo project) := by
    induction codes with
    | nil => exact fun state _ _ => (List.append_nil _).symm
    | cons file codes ih =>
        intro state hdisk hfaults
        have hdisk' : (indexFile parser project state file).2.disk = state.2.disk :=
          (indexFile_cases parser project state.1 state.2 file).1
        have hfaults' : (indexFile parser project state file).2.faults = state.2.faults :=
          (indexFile_cases parser project state.1 state.2 file).2.1
        have hread : state.2.isUnreadable parser file = h.isUnreadable parser file := by
          rw [Host.isUnreadable, Host.isUnreadable,
            Host.answer_eq hs hfaults (by rw [hdisk])]
        rw [List.foldl_cons, ih _ (hdisk'.trans hdisk) (hfaults'.trans hfaults),
          parseFailures_indexFile, hread, filter_map_cons, List.append_assoc]
  exact hall (UsageIndex.empty, h) rfl rfl

/-- **So does the second pass**, if no file changed before that it reads. -/
lemma parseFailures_foldl_updateFile {state : UpdateResult × Host}
    (hm : h.Mirrors places state.2)
    (hcodes : ∀ file ∈ codes, h.disk.HoldsFile file ∧ ¬ places (Listing.place file))
    (hnodup : codes.Nodup) :
    (codes.foldl (updateFile parser lookup project dryRun) state).1.parseFailures
      = state.1.parseFailures ++
        (codes.filter (h.isUnreadable parser)).map (·.relativeTo project) := by
  induction codes generalizing state places with
  | nil => exact (List.append_nil _).symm
  | cons file codes ih =>
      obtain ⟨hnot, hnodup'⟩ := List.nodup_cons.mp hnodup
      obtain ⟨hf, hout⟩ := hcodes file (by simp)
      have hchanged : FilesChanged (· = Listing.place file) state.2.disk
          (updateFile parser lookup project dryRun state file).2.disk :=
        (updateFile_spec hm.tree hf (hm.changed.mono fun l hl heq => hout (heq ▸ hl)) parser lookup
          project dryRun state.1).1
      -- the places that differ grow by the place of this file
      have hwider : h.Mirrors (fun l => places l ∨ l = Listing.place file) state.2 :=
        hm.mono fun l hl => Or.inl hl
      have hnext := hwider.next rfl (Host.Precedes.refl h)
        (precedes_updateFile parser lookup project dryRun state file)
        (hchanged.mono fun l hl => Or.inr hl)
      have hrest := ih hnext (fun f hmem => ?_) hnodup'
      · rw [List.foldl_cons, hrest, (updateFile_fst parser lookup project dryRun state.1 state.2
          file).2, hm.isUnreadable_eq hf hout, filter_map_cons, List.append_assoc]
      -- no later file has the place of this one
      obtain ⟨hf', hout'⟩ := hcodes f (by simp [hmem])
      refine ⟨hf', fun hplace => ?_⟩
      rcases hplace with hplace | hplace
      · exact hout' hplace
      · have heq := hf'.isPlace.eq_of_place_eq hf.isPlace hplace
        exact hnot (heq ▸ hmem)

end Counts

end ImageMigration
