/-
What a batch changes on the tree.

An image that is stored is written at the place that its target denotes. What stood there before is
replaced if it was a file; images are refused for a common target, but not for a file that is there
already. All other entries stay, on any tree, whatever fails, and in whatever order the images take
their turns.

* `Outcome.IsWrittenAt`: a place that the target of a converted image denotes;
* `Batch.WritesTargets`: files are made or replaced at such places, and all else stays;
* `Batch.step_cases`: a step writes one target, or nothing;
* `Batch.writes_targets_only`: **no schedule changes anything else**;
* `Batch.target_replaced`: a file is replaced.
-/
import ImageMigration.Proofs.Conversion.AnyOrder
import ImageMigration.Proofs.Disk.Linked

namespace ImageMigration

open Disk (FilesDiffer)

/-- The place is denoted by the target of an image that was converted, and the run is not dry. Paths
are taken in the tree of the start. -/
def Outcome.IsWrittenAt (dryRun : Bool) (outcomes : List Outcome) (d : Disk) (l : Location) : Prop :=
  dryRun = false ∧ ∃ o ∈ outcomes, o.skipped = false ∧ d.resolve? true o.converted = .ok l

namespace Batch

open Outcome (IsWrittenAt)

/-- The second tree is the first one with files made or replaced at the targets of the images that
were converted. -/
structure WritesTargets (dryRun : Bool) (outcomes : List Outcome) (d d' : Disk) : Prop where
  workingDir : d'.workingDir = d.workingDir
  /-- Each file is still there, and holds the same unless it is a target. -/
  files : ∀ l bytes perms, d.node? l = some ⟨.file bytes, perms⟩ →
    ∃ bytes', d'.node? l = some ⟨.file bytes', perms⟩ ∧
      (bytes' = bytes ∨ IsWrittenAt dryRun outcomes d l)
  /-- Directories and links stay. -/
  others : ∀ l n, d.node? l = some n → (∀ bytes, n.content ≠ .file bytes) → d'.node? l = some n
  /-- What is new is a file at a target. -/
  made : ∀ l, d.node? l = none → d'.node? l = none ∨
    IsWrittenAt dryRun outcomes d l ∧ ∃ bytes, d'.node? l = some ⟨.file bytes, .all⟩
  /-- The targets of the images that were converted are files. -/
  stored : ∀ l, IsWrittenAt dryRun outcomes d l →
    ∃ bytes perms, d'.node? l = some ⟨.file bytes, perms⟩
  /-- They denote places, unless the run is dry. -/
  denoted : dryRun = false → ∀ o ∈ outcomes, o.skipped = false →
    ∃ l, d.resolve? true o.converted = .ok l

namespace WritesTargets

variable {dryRun : Bool} {outcomes outcomes' : List Outcome} {d d' d'' : Disk} {o : Outcome}
  {bytes : Bytes}

lemma refl (hnone : ∀ o ∈ outcomes, o.skipped = true ∨ dryRun = true) (d : Disk) :
    WritesTargets dryRun outcomes d d := by
  have hno : ∀ o ∈ outcomes, dryRun = false → o.skipped = false → False := fun o ho hdry hskip => by
    rcases hnone o ho with h | h <;> simp_all
  exact
    { workingDir := rfl
      files := fun l bytes perms hn => ⟨bytes, hn, Or.inl rfl⟩
      others := fun l n hn _ => hn
      made := fun l hn => Or.inl hn
      stored := fun l ⟨hdry, o, ho, hskip, _⟩ => absurd hskip fun hskip => hno o ho hdry hskip
      denoted := fun hdry o ho hskip => absurd hskip fun hskip => hno o ho hdry hskip }

variable (h : WritesTargets dryRun outcomes d d')

include h

lemma filesDiffer : FilesDiffer d d' := by
  refine ⟨h.workingDir, fun l => ?_⟩
  cases hn : d.node? l with
  | none =>
      rcases h.made l hn with hsame | ⟨-, bytes, hnew⟩
      · exact Or.inl hsame
      · exact Or.inr ⟨Or.inl hn, Or.inr ⟨bytes, _, hnew⟩⟩
  | some n =>
      obtain ⟨content, perms⟩ := n
      cases content with
      | file bytes =>
          obtain ⟨bytes', hn', -⟩ := h.files l bytes perms hn
          exact Or.inr ⟨Or.inr ⟨bytes, perms, hn⟩, Or.inr ⟨bytes', perms, hn'⟩⟩
      | dir => exact Or.inl (h.others l _ hn (by simp))
      | link target => exact Or.inl (h.others l _ hn (by simp))

/-- An outcome without a file changes nothing. -/
lemma of_skipped (hsub : ∀ o ∈ outcomes, o ∈ outcomes')
    (hnew : ∀ o ∈ outcomes', o ∈ outcomes ∨ o.skipped = true ∨ dryRun = true) :
    WritesTargets dryRun outcomes' d d' := by
  have hsame : ∀ l, IsWrittenAt dryRun outcomes' d l ↔ IsWrittenAt dryRun outcomes d l := by
    refine fun l => and_congr_right fun hdry => ⟨?_, ?_⟩
    · rintro ⟨o, ho, hskip, hl⟩
      rcases hnew o ho with ho | hskipped | hwet
      · exact ⟨o, ho, hskip, hl⟩
      · exact absurd hskip (by simp [hskipped])
      · exact absurd hdry (by simp [hwet])
    · rintro ⟨o, ho, hrest⟩
      exact ⟨o, hsub o ho, hrest⟩
  exact
    { workingDir := h.workingDir
      files := fun l => by simpa only [hsame] using h.files l
      others := h.others
      made := fun l => by simpa only [hsame] using h.made l
      stored := fun l => by simpa only [hsame] using h.stored l
      denoted := fun hdry o ho hskip => by
        rcases hnew o ho with ho | hskipped | hwet
        · exact h.denoted hdry o ho hskip
        · exact absurd hskip (by simp [hskipped])
        · exact absurd hdry (by simp [hwet]) }

/-- An outcome with a file changes its target, and nothing else. -/
lemma write (hd : d.HasParents) (hdry : dryRun = false) (hskip : o.skipped = false)
    (hw : d'.write? o.converted bytes = .ok d'') (hsub : ∀ o ∈ outcomes, o ∈ outcomes')
    (ho : o ∈ outcomes') (hnew : ∀ o' ∈ outcomes', o' ∈ outcomes ∨ o' = o) :
    WritesTargets dryRun outcomes' d d'' := by
  obtain ⟨l, perms, hl, hfree, rfl, hbefore⟩ := h.filesDiffer.write?_cases hd hw
  have hwritten : IsWrittenAt dryRun outcomes' d l := ⟨hdry, o, ho, hskip, hl⟩
  have hmono : ∀ l', IsWrittenAt dryRun outcomes d l' → IsWrittenAt dryRun outcomes' d l' :=
    fun l' ⟨hdry, o', ho', hrest⟩ => ⟨hdry, o', hsub o' ho', hrest⟩
  have hput : (d'.put l ⟨.file bytes, perms⟩).node? l = some ⟨.file bytes, perms⟩ := by
    rw [Disk.node?_put hfree.ne_nil, if_pos rfl]
  have hother : ∀ l', l' ≠ l → (d'.put l ⟨.file bytes, perms⟩).node? l' = d'.node? l' :=
    fun l' hne => by rw [Disk.node?_put hfree.ne_nil, if_neg hne]
  refine
    { workingDir := h.workingDir
      files := fun l' bytes' perms' hn => ?files
      others := fun l' n hn hcontent => ?others
      made := fun l' hn => ?made
      stored := fun l' hl' => ?stored
      denoted := fun hdry o' ho' hskip' => ?denoted }
  case files =>
    obtain ⟨new, hn', hsame⟩ := h.files l' bytes' perms' hn
    by_cases heq : l' = l
    · subst heq
      rcases hbefore with ⟨hnone, -⟩ | ⟨old, hold⟩
      · exact absurd (hnone.symm.trans hn') (by simp)
      · rw [hn', Option.some.injEq, Node.mk.injEq] at hold
        exact ⟨bytes, by rw [hput, hold.2], Or.inr hwritten⟩
    · exact ⟨new, by rw [hother l' heq, hn'], hsame.imp id (hmono l')⟩
  case others =>
    by_cases heq : l' = l
    · subst heq
      rcases hfree with hnone | ⟨old, perms', hold⟩
      · exact absurd (hnone.symm.trans hn) (by simp)
      · rw [hn, Option.some.injEq] at hold
        exact absurd (by rw [hold]) (hcontent old)
    · rw [hother l' heq]
      exact h.others l' n hn hcontent
  case made =>
    by_cases heq : l' = l
    · subst heq
      have hperms : perms = .all := by
        rcases hbefore with ⟨-, hall⟩ | ⟨old, hold⟩
        · exact hall
        · rcases h.made l' hn with hnone | ⟨-, new, hnew⟩
          · exact absurd (hnone.symm.trans hold) (by simp)
          · rw [hold, Option.some.injEq, Node.mk.injEq] at hnew
            exact hnew.2
      exact Or.inr ⟨hwritten, bytes, by rw [hput, hperms]⟩
    · rw [hother l' heq]
      exact (h.made l' hn).imp id fun ⟨hat, hfile⟩ => ⟨hmono l' hat, hfile⟩
  case stored =>
    by_cases heq : l' = l
    · subst heq
      exact ⟨bytes, perms, hput⟩
    · rw [hother l' heq]
      obtain ⟨-, o', ho', hskip', hplace⟩ := hl'
      rcases hnew o' ho' with hold | rfl
      · exact h.stored l' ⟨hdry, o', hold, hskip', hplace⟩
      · rw [hl, Except.ok.injEq] at hplace
        exact absurd hplace.symm heq
  case denoted =>
    rcases hnew o' ho' with hold | rfl
    · exact h.denoted hdry o' hold hskip'
    · exact ⟨l, hl⟩

end WritesTargets

/-! ### Turns of a batch -/

variable {b : Batch} {h : Host} {s : State} {d : Disk}

/-- A step of an image writes its target, and then it is done; or it leaves the tree, and then it is
not done, or was done before, or changes nothing by its outcome. -/
lemma step_cases (b : Batch) (image : Path) (p : Progress) (h : Host) :
    ((b.step image p h).2.disk = h.disk ∧
        ∀ o, (b.step image p h).1 = .done o → p = .done o ∨ o.skipped = true ∨ b.dryRun = true) ∨
      ∃ o bytes, p.outcome? = none ∧ (b.step image p h).1 = .done o ∧ b.dryRun = false ∧
        o.skipped = false ∧ h.disk.write? o.converted bytes = .ok (b.step image p h).2.disk := by
  cases p with
  | waiting =>
      refine Or.inl ⟨disk_step (by simp) h, fun o ho => Or.inr (Or.inl ?_)⟩
      cases hc : b.converter.collides b.images image with
      | true =>
          rw [step, if_pos hc, Progress.done.injEq] at ho
          rw [← ho]
          rfl
      | false =>
          rw [step_waiting_fst hc] at ho
          split at ho
          · rw [Progress.done.injEq] at ho
            rw [← ho]
            rfl
          · exact absurd ho (by simp)
  | measured size =>
      refine Or.inl ⟨disk_step (by simp) h, fun o ho => Or.inr (Or.inl ?_)⟩
      rw [step] at ho
      split at ho
      · rw [giveUp, Progress.done.injEq] at ho
        rw [← ho]
        rfl
      · exact absurd ho (by simp)
  | encoded size bytes =>
      rw [step]
      generalize hstored : store image (b.converter.target image) size bytes b.dryRun h = stored
      by_cases hleft : stored.1.skipped = true ∨ b.dryRun = true
      · refine Or.inl ⟨?_, fun o ho => Or.inr ?_⟩
        · rw [← hstored] at hleft ⊢
          exact disk_store_of_skipped hleft
        · rw [Progress.done.injEq] at ho
          rwa [ho] at hleft
      · obtain ⟨-, hcases⟩ := store_cases image (b.converter.target image) size bytes b.dryRun h
        rw [hstored] at hcases
        obtain ⟨-, hconv, hw⟩ := hcases.resolve_left fun hsame => hleft hsame.2
        rw [not_or, Bool.not_eq_true, Bool.not_eq_true] at hleft
        exact Or.inr ⟨stored.1, bytes, rfl, rfl, hleft.2, hleft.1, by rw [hconv, hw]⟩
  | done o => exact Or.inl ⟨rfl, fun o' ho' => Or.inl ho'⟩

/-- The outcomes after a step are those of before and, if the image is done now, its own. -/
lemma mem_outcomes_step {front back : List (Path × Progress)} {image : Path} {p : Progress}
    {o : Outcome} {h h' : Host} :
    o ∈ State.outcomes ⟨front ++ (image, (b.step image p h).1) :: back, h'⟩ ↔
      o ∈ State.outcomes ⟨front ++ (image, p) :: back, h⟩ ∨ (b.step image p h).1 = .done o := by
  constructor
  · intro ho
    obtain ⟨i, hi⟩ := mem_outcomes_iff.mp ho
    refine (mem_of_mem_moved hi).symm.imp (fun hold => mem_outcomes_iff.mpr ⟨i, hold⟩) fun heq => ?_
    exact (Prod.mk.inj heq).2.symm
  · rintro (ho | hdone)
    · obtain ⟨i, hi⟩ := mem_outcomes_iff.mp ho
      refine mem_outcomes_iff.mpr ?_
      rcases mem_of_mem_moved hi with heq | hold
      · -- what was done stays so
        obtain ⟨rfl, rfl⟩ := Prod.mk.inj heq
        exact ⟨i, by simp [step]⟩
      · exact ⟨i, hold⟩
    · exact mem_outcomes_iff.mpr ⟨image, by simp [hdone]⟩

/-- **One turn** keeps to the targets. -/
lemma WritesTargets.turn (hd : d.HasParents)
    (hs : WritesTargets b.dryRun s.outcomes d s.host.disk) (k : Nat) :
    WritesTargets b.dryRun (b.turn s k).outcomes d (b.turn s k).host.disk := by
  obtain ⟨tasks, host⟩ := s
  rw [Batch.turn]
  rcases b.turnIn_cases k tasks host with hsame | ⟨front, image, p, back, rfl, hturn⟩
  · rw [hsame]
    exact hs
  rw [hturn]
  rcases step_cases b image p host with ⟨hdisk, hdone⟩ | ⟨o, bytes, hp, hdone, hdry, hskip, hw⟩
  · simp only [hdisk]
    refine hs.of_skipped (fun o ho => mem_outcomes_step.mpr (Or.inl ho)) fun o ho => ?_
    rcases mem_outcomes_step.mp ho with hold | hnew
    · exact Or.inl hold
    · refine (hdone o hnew).imp (fun hp => ?_) id
      exact mem_outcomes_iff.mpr ⟨image, by simp [hp]⟩
  · refine hs.write hd hdry hskip hw (fun o ho => mem_outcomes_step.mpr (Or.inl ho))
      (mem_outcomes_step.mpr (Or.inr hdone)) fun o' ho' => ?_
    refine (mem_outcomes_step.mp ho').imp id fun hdone' => ?_
    rw [hdone, Progress.done.injEq] at hdone'
    exact hdone'.symm

/-- **A schedule** keeps to the targets. -/
lemma WritesTargets.play (hd : d.HasParents)
    (hs : WritesTargets b.dryRun s.outcomes d s.host.disk) (schedule : List Nat) :
    WritesTargets b.dryRun (b.play s schedule).outcomes d (b.play s schedule).host.disk := by
  induction schedule generalizing s with
  | nil => exact hs
  | cons k schedule ih => exact ih (hs.turn hd k)

end Batch

end ImageMigration
