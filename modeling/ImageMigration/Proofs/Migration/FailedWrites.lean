/-
Writes that failed in the course of a run.

Every write that fails gets a line in the log, and nothing is ever taken from the log. So the number
of failed writes grows along a run, and a run without failed writes has none in any of its stages.

* `Event.isFailedWrite`, `Host.failedWrites`: the writes that failed so far;
* `Host.Precedes`: the order in which machines follow each other in a run;
  `Host.Precedes.failedWrites_eq`: **without failed writes, no part of a run has any**;
* `Host.Performs.precedes`: what a machine performs comes after it;
* `precedes_convertAmong`, `precedes_updateFile`: one image and one file; `Host.precedes_foldl`: all
  files;
* `Migration.precedes_converting`, `Migration.precedes_converted`, `Migration.precedes_updated`,
  `Migration.precedes_cleanUp`: the stages of a run follow each other.
-/
import ImageMigration.Proofs.Migration.Stages

namespace ImageMigration

/-- Whether an event tells of a write that failed. -/
def Event.isFailedWrite : Event → Bool
  | failed .write _ _ => true
  | _ => false

namespace Host

variable {α : Type} {h h' h'' : Host}

/-- The number of writes that failed so far. -/
def failedWrites (h : Host) : Nat := h.log.countP Event.isFailedWrite

/-- The second machine comes after the first in a run: the same is bound to fail, and what failed is
not forgotten. -/
structure Precedes (h h' : Host) : Prop where
  faults : h'.faults = h.faults
  failedWrites : h.failedWrites ≤ h'.failedWrites

lemma Precedes.refl (h : Host) : h.Precedes h := ⟨rfl, Nat.le_refl _⟩

lemma Precedes.trans (first : h.Precedes h') (second : h'.Precedes h'') : h.Precedes h'' :=
  ⟨second.faults.trans first.faults, Nat.le_trans first.failedWrites second.failedWrites⟩

/-- A run without failed writes has none before or after any of its moments. -/
lemma Precedes.failedWrites_eq (first : h.Precedes h') (second : h'.Precedes h'')
    (hno : h''.failedWrites = h.failedWrites) :
    h'.failedWrites = h.failedWrites ∧ h''.failedWrites = h'.failedWrites := by
  have hfirst := first.failedWrites
  have hsecond := second.failedWrites
  omega

lemma failedWrites_reportAll (h : Host) (es : List Event) :
    (h.reportAll es).failedWrites = h.failedWrites + es.countP Event.isFailedWrite :=
  List.countP_append

lemma failedWrites_report (h : Host) (e : Event) :
    (h.report e).failedWrites = h.failedWrites + [e].countP Event.isFailedWrite :=
  failedWrites_reportAll h [e]

lemma precedes_reportAll (h : Host) (es : List Event) : h.Precedes (h.reportAll es) :=
  ⟨rfl, by rw [failedWrites_reportAll]; exact Nat.le_add_right _ _⟩

lemma precedes_report (h : Host) (e : Event) : h.Precedes (h.report e) := h.precedes_reportAll [e]

lemma precedes_tick (h : Host) : h.Precedes h.tick := ⟨rfl, Nat.le_refl _⟩

/-- What a machine performs comes after it. -/
lemma Performs.precedes {cs : List Mutation} (hp : h.Performs cs h') : h.Precedes h' := by
  induction hp with
  | refl => exact Precedes.refl h
  | report _ _ ih => exact ih.trans (precedes_report _ _)
  | tick _ ih => exact ih.trans (precedes_tick _)
  | @mutate cs h' c disk _ _ ih =>
      have hdone : h'.Precedes { h'.tick with disk } := ⟨rfl, Nat.le_refl _⟩
      exact ih.trans (hdone.trans (precedes_report _ _))

/-- What follows from each step follows from all of them. -/
lemma precedes_foldl {σ : Type} {step : σ × Host → α → σ × Host}
    (hstep : ∀ (state : σ × Host) a, state.2.Precedes (step state a).2) (items : List α)
    (state : σ × Host) : state.2.Precedes (items.foldl step state).2 := by
  induction items generalizing state with
  | nil => exact Precedes.refl _
  | cons a items ih => exact (hstep state a).trans (ih _)

end Host

open Host (precedes_report precedes_foldl)

/-! ### Images -/

lemma precedes_convertAmong (c : Converter) (images : List Path) (quality : Nat) (dryRun : Bool)
    (image : Path) (h : Host) :
    h.Precedes (convertAmong c images quality dryRun image h).2 := by
  obtain ⟨_, hperforms, -⟩ := performs_convertAmong h c images quality dryRun image
  exact hperforms.precedes

lemma precedes_convertEach (c : Converter) (all : List Path) (quality : Nat) (dryRun : Bool)
    (images : List Path) (h : Host) :
    h.Precedes (convertEach c all quality dryRun images h).2 := by
  induction images generalizing h with
  | nil => exact Host.Precedes.refl h
  | cons image images ih =>
      exact (precedes_convertAmong c all quality dryRun image h).trans (ih _)

/-! ### Sources -/

lemma precedes_writeEdits (project file : Path) (source : Text) (plan : Plan)
    (result : UpdateResult) (h : Host) :
    h.Precedes (writeEdits project file source plan result h).2 := by
  obtain ⟨_, hperforms, -⟩ := performs_writeEdits h project file source plan result
  exact hperforms.precedes

lemma precedes_noteUnedited (project file : Path) (plan : Plan) (result : UpdateResult)
    (h : Host) : h.Precedes (noteUnedited project file plan result h).2 :=
  (performs_noteUnedited h project file plan result).precedes

lemma precedes_carryOut (project file : Path) (source : Text) (plan : Plan) (dryRun : Bool)
    (result : UpdateResult) (h : Host) :
    h.Precedes (carryOut project file source plan dryRun result h).2 := by
  obtain ⟨_, hperforms, -⟩ := performs_carryOut h project file source plan dryRun result
  exact hperforms.precedes

lemma precedes_updateFile (parser : ParserOf) (lookup : Lookup) (project : Path) (dryRun : Bool)
    (state : UpdateResult × Host) (file : Path) :
    state.2.Precedes (updateFile parser lookup project dryRun state file).2 := by
  obtain ⟨_, hperforms, -⟩ := performs_updateFile state.2 parser lookup project dryRun state.1 file
  exact hperforms.precedes

/-! ### Runs -/

namespace Migration

lemma precedes_found (m : Migration) (h : Host) : h.Precedes (m.found h) :=
  (m.performs_found h).precedes

lemma precedes_converting (m : Migration) (h : Host) : h.Precedes (m.converting h) :=
  (m.performs_converting h).precedes

lemma precedes_converted (m : Migration) (h : Host) :
    (m.converting h).Precedes (m.converted h).2 :=
  precedes_convertEach _ _ _ _ _ _

lemma precedes_updating (m : Migration) (h : Host) : (m.converted h).2.Precedes (m.updating h) :=
  precedes_report _ _

lemma precedes_updated (m : Migration) (h : Host) : (m.updating h).Precedes (m.updated h).2 := by
  rw [updated, updateSources]
  split
  · exact Host.Precedes.refl _
  · have hreport := precedes_report (m.updating h) .updatingReferences
    rw [updateAll]
    split
    · exact hreport
    · exact hreport.trans (precedes_foldl
        (precedes_updateFile m.parser _ (m.project h) m.config.dryRun) _ (UpdateResult.empty, _))

lemma precedes_cleanUp (m : Migration) (c : Classification) (r : UpdateResult)
    (successful : List Outcome) (s : Summary) (h : Host) :
    h.Precedes (m.cleanUp c r successful s h).2 := by
  obtain ⟨_, -, -, hperforms⟩ := performs_cleanUp m c r successful s h
  exact hperforms.precedes

end Migration

end ImageMigration
