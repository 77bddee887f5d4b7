/-
What the parts of a run perform.

Every part is looked at on its own, on any machine: it makes a new image, updates a source, deletes
a file, or changes nothing. What is known of the change is told by the tree at that moment.

* `Mutation.Stores`, `Mutation.Updates`: the changes that conversions and updates make;
* `performs_convertAmong`, `performs_updateFile`, `performs_deleteFile`: one image and one file;
* `performs_convertEach`, `performs_foldl_updateFile`, `performs_deleteFiles`: **lists of them, told
  by the tree before the first one.**
-/
import ImageMigration.Proofs.Conversion.Measured
import ImageMigration.Proofs.Host.Mutation
import ImageMigration.Proofs.Update.Files

namespace ImageMigration

open Disk (FilesChanged)
open Host (Performs)

/-- An item of the second of two related lists is related to one of the first. -/
lemma exists_mem_of_forall₂ {α β : Type} {R : α → β → Prop} {l : List α} {l' : List β}
    (h : List.Forall₂ R l l') {b : β} (hb : b ∈ l') : ∃ a ∈ l, R a b := by
  induction h with
  | nil => exact absurd hb (by simp)
  | @cons a b' l l' hab _ ih =>
      rcases List.mem_cons.mp hb with rfl | hb
      · exact ⟨a, by simp, hab⟩
      · obtain ⟨a', hmem, hr⟩ := ih hb
        exact ⟨a', by simp [hmem], hr⟩

/-! ### Changes of one file -/

/-- The change writes the encoded bytes of an image to the place of its new image. -/
def Mutation.Stores (c : Converter) (quality : Nat) (d : Disk) (o : Outcome) (change : Mutation) :
    Prop :=
  o.converted = c.target o.image ∧ ∃ bytes,
    c.encode o.image (d.read? o.image) quality = .ok bytes ∧
      change = .write o.converted o.oldSize bytes

/-- The change writes a source with the edits of its plan, of which there are some. -/
def Mutation.Updates (parser : ParserOf) (lookup : Lookup) (project : Path) (d : Disk) (file : Path)
    (change : Mutation) : Prop :=
  ∃ source literals, d.ReadsAs parser file source literals ∧
    (Plan.ofLiterals lookup ⟨project, file⟩ source literals).edits ≠ [] ∧
    change = .update file source (Plan.ofLiterals lookup ⟨project, file⟩ source literals)

section Parts

variable (h : Host)

/-! ### Images -/

/-- What is stored is written, unless it was skipped or the run is dry. -/
lemma performs_store (image target : Path) (oldSize : Nat) (encoded : Bytes) (dryRun : Bool) :
    ∃ cs, h.Performs cs (store image target oldSize encoded dryRun h).2 ∧
      (((store image target oldSize encoded dryRun h).1.skipped = true ∨ dryRun = true) ∧ cs = [] ∨
        (store image target oldSize encoded dryRun h).1.skipped = false ∧ dryRun = false ∧
          cs = [.write target oldSize encoded]) := by
  have hends := storeEnds image target oldSize encoded dryRun h
  generalize store image target oldSize encoded dryRun h = result at hends ⊢
  cases hends with
  | kept => exact ⟨[], .report .refl rfl, Or.inl ⟨Or.inl rfl, rfl⟩⟩
  | previewed hsize hdry => exact ⟨[], .refl, Or.inl ⟨Or.inr hdry, rfl⟩⟩
  | unwritable => exact ⟨[], .report (.tick .refl) rfl, Or.inl ⟨Or.inl rfl, rfl⟩⟩
  | written disk hsize hwet hwrite =>
      have hdone : h.Performs ([] ++ [.write target oldSize encoded]) _ := .mutate .refl hwrite
      exact ⟨_, hdone, Or.inr ⟨rfl, hwet, rfl⟩⟩

/-- **Converting an image** writes its new image, unless it was skipped or the run is dry. -/
lemma performs_convertAmong (c : Converter) (images : List Path) (quality : Nat) (dryRun : Bool)
    (image : Path) :
    ∃ cs, h.Performs cs (convertAmong c images quality dryRun image h).2 ∧
      (((convertAmong c images quality dryRun image h).1.skipped = true ∨ dryRun = true) ∧ cs = [] ∨
        (convertAmong c images quality dryRun image h).1.skipped = false ∧ dryRun = false ∧
          ∃ change, cs = [change] ∧
            change.Stores c quality h.disk (convertAmong c images quality dryRun image h).1) := by
  have hends := conversionEnds c images quality dryRun image h
  generalize convertAmong c images quality dryRun image h = result at hends ⊢
  cases hends with
  | refused => exact ⟨[], .refl, Or.inl ⟨Or.inl rfl, rfl⟩⟩
  | unmeasured => exact ⟨[], .report (.tick .refl) rfl, Or.inl ⟨Or.inl rfl, rfl⟩⟩
  | unencoded => exact ⟨[], .report (.tick (.tick .refl)) rfl, Or.inl ⟨Or.inl rfl, rfl⟩⟩
  | encoded size bytes hfree hstat hencode =>
      obtain ⟨cs, hperforms, hcs⟩ :=
        performs_store h.tick.tick image (c.target image) size bytes dryRun
      refine ⟨cs, hperforms.after (.tick (.tick .refl)), hcs.imp id ?_⟩
      rintro ⟨hskip, hdry, rfl⟩
      refine ⟨hskip, hdry, _, rfl, ?_⟩
      rw [(store_fst_of_not_skipped hskip).2]
      exact ⟨rfl, bytes, (run_cases c image quality h.tick).2 bytes hencode, rfl⟩

/-! ### Sources -/

/-- Lines about references tell of no change. -/
lemma isChange_candidateEvents (site : Site) (r : Reference) :
    ∀ e ∈ candidateEvents site r, e.isChange = false := by
  intro e he
  obtain ⟨convention, -, rfl⟩ := List.mem_map.mp he
  rfl

lemma isChange_referenceEvents (site : Site) (r : Reference) :
    ∀ e ∈ referenceEvents site r, e.isChange = false := by
  intro e he
  rw [referenceEvents] at he
  split at he
  · rw [List.mem_singleton.mp he]
    rfl
  · exact isChange_candidateEvents site r e he

lemma isChange_droppingEdit (edits : List Edit) :
    ∀ e ∈ edits.map Event.droppingEdit, e.isChange = false := by
  intro e he
  obtain ⟨edit, -, rfl⟩ := List.mem_map.mp he
  rfl

lemma isChange_planEvents (lookup : Lookup) (site : Site) (source : Text) (literal : Literal) :
    ∀ e ∈ planEvents lookup site source literal, e.isChange = false := by
  intro e he
  cases literal with
  | template parts => exact absurd he (by simp [planEvents])
  | string span value verbatim =>
      rw [planEvents, List.mem_append, List.mem_flatMap, reemitEvents] at he
      rcases he with ⟨r, -, hr⟩ | he
      · exact isChange_candidateEvents site r e hr
      · split at he
        · rcases List.mem_cons.mp he with rfl | he
          · rfl
          · exact isChange_droppingEdit _ e he
        · exact absurd he (by simp)

lemma performs_indexFile (parser : ParserOf) (project : Path) (index : UsageIndex) (file : Path) :
    h.Performs [] (indexFile parser project (index, h) file).2 := by
  have hends := indexEnds parser project index h file
  generalize indexFile parser project (index, h) file = after at hends ⊢
  cases hends with
  | unread => exact .report (.tick .refl) rfl
  | unparsed => exact .report (.tick .refl) rfl
  | indexed source literals =>
      refine Performs.reportAll (.tick .refl) fun e he => ?_
      obtain ⟨r, -, hr⟩ := List.mem_flatMap.mp he
      exact isChange_referenceEvents _ r e hr

lemma performs_indexUsages (parser : ParserOf) (codes : List Path) (project : Path) :
    h.Performs [] (indexUsages parser codes project h).2 := by
  have hall : ∀ state : UsageIndex × Host, h.Performs [] state.2 →
      h.Performs [] (codes.foldl (indexFile parser project) state).2 := by
    induction codes with
    | nil => exact fun state hstate => hstate
    | cons file codes ih =>
        exact fun state hstate =>
          ih _ ((performs_indexFile state.2 parser project state.1 file).after hstate)
  exact hall (UsageIndex.empty, h) .refl

/-- Telling used images from unused ones changes nothing. -/
lemma performs_classify (parser : ParserOf) (codes images : List Path) (project : Path)
    (config : Config) : h.Performs [] (classify parser codes images project config h).2 := by
  have hindex := performs_indexUsages h parser codes project
  simp only [classify]
  split
  · refine hindex.reportAll fun e he => ?_
    simp only [usageEvents, List.mem_cons, List.not_mem_nil, or_false] at he
    rcases he with rfl | rfl | rfl | rfl <;> rfl
  · exact hindex

lemma performs_noteUnedited (project file : Path) (plan : Plan) (result : UpdateResult) :
    h.Performs [] (noteUnedited project file plan result h).2 := by
  rw [noteUnedited]
  split
  · exact .report .refl rfl
  · exact .refl

lemma performs_writeEdits (project file : Path) (source : Text) (plan : Plan)
    (result : UpdateResult) :
    ∃ cs, h.Performs cs (writeEdits project file source plan result h).2 ∧
      (cs = [] ∨ cs = [.update file source plan]) := by
  have hdropped : h.Performs [] (h.reportAll (plan.droppingEvents source)) :=
    Performs.refl.reportAll (isChange_droppingEdit _)
  have hends := writeEnds project file source plan result h
  generalize h.reportAll (plan.droppingEvents source) = told at hdropped hends
  generalize writeEdits project file source plan result h = after at hends ⊢
  cases hends with
  | unwritable => exact ⟨[], hdropped.tick.report rfl, Or.inl rfl⟩
  | written disk hwrite =>
      have hdone : told.Performs ([] ++ [.update file source plan]) _ := .mutate .refl hwrite
      exact ⟨_, hdone.after hdropped, Or.inr rfl⟩

lemma performs_carryOut (project file : Path) (source : Text) (plan : Plan) (dryRun : Bool)
    (result : UpdateResult) :
    ∃ cs, h.Performs cs (carryOut project file source plan dryRun result h).2 ∧
      (cs = [] ∨ dryRun = false ∧ plan.edits ≠ [] ∧ cs = [.update file source plan]) := by
  have hnoted := performs_noteUnedited h project file plan result
  have hends := carryOutEnds project file source plan dryRun result h
  generalize noteUnedited project file plan result h = noted at hnoted hends
  generalize carryOut project file source plan dryRun result h = after at hends ⊢
  cases hends with
  | untouched => exact ⟨[], hnoted, Or.inl rfl⟩
  | previewed => exact ⟨[], hnoted, Or.inl rfl⟩
  | written hedits hwet =>
      obtain ⟨cs, hperforms, hcs⟩ := performs_writeEdits noted.2 project file source plan noted.1
      exact ⟨cs, hperforms.after hnoted, hcs.imp id fun hupdate => ⟨hwet, hedits, hupdate⟩⟩

/-- **Updating a file** writes it with the edits of its plan, if there are any, unless the run is
dry. -/
lemma performs_updateFile (parser : ParserOf) (lookup : Lookup) (project : Path) (dryRun : Bool)
    (result : UpdateResult) (file : Path) :
    ∃ cs, h.Performs cs (updateFile parser lookup project dryRun (result, h) file).2 ∧
      (cs = [] ∨ dryRun = false ∧ ∃ change, cs = [change] ∧
        change.Updates parser lookup project h.disk file) := by
  have hends := updateEnds parser lookup project dryRun result h file
  generalize updateFile parser lookup project dryRun (result, h) file = after at hends ⊢
  cases hends with
  | unread => exact ⟨[], .report (.tick .refl) rfl, Or.inl rfl⟩
  | unparsed => exact ⟨[], .report (.tick .refl) rfl, Or.inl rfl⟩
  | planned source literals hread hparse =>
      have htold : h.Performs [] (h.tick.reportAll
          (literals.flatMap (planEvents lookup ⟨project, file⟩ source))) := by
        refine Performs.reportAll (.tick .refl) fun e he => ?_
        obtain ⟨literal, -, hliteral⟩ := List.mem_flatMap.mp he
        exact isChange_planEvents _ _ _ literal e hliteral
      obtain ⟨cs, hperforms, hcs⟩ := performs_carryOut
        (h.tick.reportAll (literals.flatMap (planEvents lookup ⟨project, file⟩ source)))
        project file source (Plan.ofLiterals lookup ⟨project, file⟩ source literals) dryRun result
      refine ⟨cs, hperforms.after htold, hcs.imp id ?_⟩
      rintro ⟨hdry, hedits, rfl⟩
      exact ⟨hdry, _, rfl, source, literals, ⟨Host.eq_ok_of_answer hread, hparse⟩, hedits, rfl⟩

/-! ### Deletions -/

/-- **Deleting a file** does so, or changes nothing. -/
lemma performs_deleteFile (count : Nat) (path : Path) :
    ∃ cs, h.Performs cs (deleteFile (count, h) path).2 ∧ (cs = [] ∨ cs = [.delete path]) := by
  simp only [deleteFile, Host.change_eq]
  cases hremove : h.answer .delete path (·.remove? path) with
  | error e =>
      refine ⟨[], Performs.reportAll (.tick .refl) fun event hevent => ?_, Or.inl rfl⟩
      simp only [List.mem_cons, List.not_mem_nil, or_false] at hevent
      rcases hevent with rfl | rfl <;> rfl
  | ok disk =>
      have hdone : h.Performs ([] ++ [.delete path]) _ := .mutate .refl hremove
      exact ⟨_, hdone, Or.inr rfl⟩

/-- Deleting files deletes some of them, in their order. -/
lemma performs_deleteFiles (decision : CleanupDecision) (paths : List Path) :
    ∃ gone : List Path, gone.Sublist paths ∧ (decision ≠ .allowed → gone = []) ∧
      h.Performs (gone.map .delete) (deleteFiles decision paths h).2 := by
  by_cases hallowed : decision = .allowed
  · have hall : ∀ state : Nat × Host, ∃ gone : List Path, gone.Sublist paths ∧
        state.2.Performs (gone.map .delete) (paths.foldl deleteFile state).2 := by
      induction paths with
      | nil => exact fun state => ⟨[], List.Sublist.refl _, .refl⟩
      | cons path paths ih =>
          intro state
          obtain ⟨cs, hfirst, hcs⟩ := performs_deleteFile state.2 state.1 path
          obtain ⟨gone, hsublist, hrest⟩ := ih (deleteFile state path)
          rcases hcs with rfl | rfl
          · exact ⟨gone, hsublist.cons path, hrest.after hfirst⟩
          · exact ⟨path :: gone, hsublist.cons_cons path, hfirst.trans hrest⟩
    obtain ⟨gone, hsublist, hperforms⟩ := hall (0, h)
    rw [deleteFiles, if_pos hallowed]
    exact ⟨gone, hsublist, fun hno => absurd hallowed hno, hperforms⟩
  · rw [deleteFiles_of_not_allowed hallowed]
    exact ⟨[], List.nil_sublist _, fun _ => rfl, .refl⟩

end Parts

/-! ### Lists of images and files -/

section Lists

variable {c : Converter} {all images codes : List Path} {d : Disk} {h : Host}

/-- **A batch writes the new images of the outcomes that were not skipped**, in their order, as the
first tree has the images. In a dry run it writes nothing. -/
lemma performs_convertEach (hd : d.IsTree) (he : IsNewExtension c.extension)
    (hall : ∀ i ∈ all, d.HoldsFile i ∧ i.isImage = true) (hsub : images ⊆ all)
    (hchanged : FilesChanged (c.IsTarget all all) d h.disk) (quality : Nat) (dryRun : Bool) :
    ∃ cs, h.Performs cs (convertEach c all quality dryRun images h).2 ∧
      (dryRun = true → cs = []) ∧
      (dryRun = false → List.Forall₂ (Mutation.Stores c quality d)
        ((convertEach c all quality dryRun images h).1.filter fun o => !o.skipped) cs) := by
  induction images generalizing h with
  | nil => exact ⟨[], .refl, fun _ => rfl, fun _ => .nil⟩
  | cons image images ih =>
      obtain ⟨hmem, hsub'⟩ := List.cons_subset.mp hsub
      obtain ⟨hf, hi⟩ := hall image hmem
      have hlinks := hchanged.hasNoLinks hd.hasNoLinks
      have hread : h.disk.read? image = d.read? image := by
        rw [← hf.isPlace.2]
        exact Disk.read?_congr hd.hasNoLinks hlinks hf.isPlace.1
          (hf.node?_take_eq hd hchanged (not_isTarget_place hf.isPlace (Or.inl hi)))
      have hname := (convertAmong_cases c all quality dryRun image h).1
      obtain ⟨first, hfirst, hcs⟩ := performs_convertAmong h c all quality dryRun image
      have hafter : FilesChanged (c.IsTarget all all) d
          (convertAmong c all quality dryRun image h).2.disk := by
        refine hchanged.trans ((convertAmong_spec hd he hf hi hchanged quality dryRun).1.mono ?_)
        rintro l ⟨i, hi, hrest⟩
        rw [List.mem_singleton] at hi
        exact ⟨i, by rw [hi]; exact hmem, hrest⟩
      obtain ⟨rest, hrest, hdry, hwet⟩ := ih hsub' hafter
      refine ⟨first ++ rest, hfirst.trans hrest, fun hdryRun => ?_, fun hwetRun => ?_⟩
      · rcases hcs with ⟨-, rfl⟩ | ⟨-, hno, -⟩
        · exact hdry hdryRun
        · rw [hdryRun] at hno
          exact absurd hno (by simp)
      · rw [convertEach]
        simp only
        rcases hcs with ⟨hskip, rfl⟩ | ⟨hskip, -, change, rfl, hstores⟩
        · rw [hwetRun] at hskip
          rw [List.filter_cons_of_neg (by simpa [hwetRun] using hskip)]
          exact hwet hwetRun
        · rw [List.filter_cons_of_pos (by simpa using hskip)]
          refine .cons ?_ (hwet hwetRun)
          rw [Mutation.Stores, hname, hread] at hstores
          rwa [Mutation.Stores, hname]

/-- **An update writes some of the sources with the edits of their plans**, in their order, as the
first tree has the sources. In a dry run it writes none. -/
lemma performs_foldl_updateFile (hd : d.IsTree) (hcodes : ∀ file ∈ codes, d.HoldsFile file)
    (hnodup : codes.Nodup) (parser : ParserOf) (lookup : Lookup) (project : Path) (dryRun : Bool)
    (state : UpdateResult × Host)
    (hchanged : FilesChanged (fun l => ∀ file ∈ codes, l ≠ Listing.place file) d state.2.disk) :
    ∃ files cs, state.2.Performs cs
        (codes.foldl (updateFile parser lookup project dryRun) state).2 ∧
      files.Sublist codes ∧ (dryRun = true → files = []) ∧
      List.Forall₂ (Mutation.Updates parser lookup project d) files cs := by
  induction codes generalizing state with
  | nil => exact ⟨[], [], .refl, List.Sublist.refl _, fun _ => rfl, .nil⟩
  | cons file codes ih =>
      obtain ⟨hnot, hnodup'⟩ := List.nodup_cons.mp hnodup
      have hf := hcodes file (by simp)
      have hhere := hchanged.mono fun l hl => hl file (by simp)
      have hread : state.2.disk.readText? file = d.readText? file := by
        rw [← hf.isPlace.2]
        exact Disk.readText?_congr hd.hasNoLinks (hchanged.hasNoLinks hd.hasNoLinks) hf.isPlace.1
          (hf.node?_take_eq hd hhere fun hne => hne rfl)
      obtain ⟨first, hfirst, hcs⟩ :=
        performs_updateFile state.2 parser lookup project dryRun state.1 file
      -- no later file has the place of this one
      have hafter : FilesChanged (fun l => ∀ f ∈ codes, l ≠ Listing.place f) d
          (updateFile parser lookup project dryRun state file).2.disk := by
        refine (hchanged.mono fun l hl f hmem => hl f (by simp [hmem])).trans
          ((updateFile_spec hd hf hhere parser lookup project dryRun state.1).1.mono ?_)
        rintro l rfl f hmem heq
        have hsame := hf.isPlace.eq_of_place_eq (hcodes f (by simp [hmem])).isPlace heq
        exact hnot (hsame ▸ hmem)
      obtain ⟨files, rest, hrest, hsublist, hdry, hupdates⟩ :=
        ih (fun f hmem => hcodes f (by simp [hmem])) hnodup' _ hafter
      rcases hcs with rfl | ⟨hwet, change, rfl, source, literals, ⟨htext, hparse⟩, hchange⟩
      · exact ⟨files, rest, hfirst.trans hrest, hsublist.cons file, hdry, hupdates⟩
      · refine ⟨file :: files, change :: rest, hfirst.trans hrest, hsublist.cons_cons file, ?_, ?_⟩
        · intro hdryRun
          rw [hwet] at hdryRun
          exact absurd hdryRun (by simp)
        · rw [hread] at htext
          exact .cons ⟨source, literals, ⟨htext, hparse⟩, hchange⟩ hupdates

end Lists

end ImageMigration
