/-
Operations on a machine, told by their answers.

An operation hangs on the tree and on what is bound to fail. Apart from its answer, it only counts
as one operation more. So what is done with a machine can be told by the answers that it gives, and
two machines on which the same fails give the same answers if their trees do.

* `Faults.IsSteady`: what fails does not depend on the moment;
* `Host.answer`: what an operation gives; `Host.look_eq`, `Host.change_eq`: what becomes of the
  machine;
* `Host.answer_eq`: **the same tree gives the same answers.**
-/
import ImageMigration.Host
import ImageMigration.Proofs.Disk.Place

namespace ImageMigration

/-- What fails does not depend on the moment. -/
def Faults.IsSteady (f : Faults) : Prop :=
  ∀ n n' operation path, f n operation path = f n' operation path

namespace Host

variable {α : Type} {h h' : Host} {operation : Operation} {path : Path}
  {action : Disk → Except OsError α}

@[simp] lemma disk_report (h : Host) (e : Event) : (h.report e).disk = h.disk := rfl

@[simp] lemma disk_reportAll (h : Host) (es : List Event) : (h.reportAll es).disk = h.disk := rfl

/-- The machine after one more operation. -/
def tick (h : Host) : Host := { h with clock := h.clock + 1 }

/-- What an operation gives at this moment. -/
def answer (h : Host) (operation : Operation) (path : Path) (action : Disk → Except OsError α) :
    Except OsError α :=
  match h.faults h.clock operation path with
  | some e => .error e
  | none => action h.disk

lemma look_eq (h : Host) (operation : Operation) (path : Path) (action : Disk → Except OsError α) :
    h.look operation path action = (h.answer operation path action, h.tick) := by
  rw [look, attempt, answer]
  cases h.faults h.clock operation path with
  | some e => rfl
  | none => cases action h.disk <;> simp [Except.map, tick]

lemma change_eq (h : Host) (operation : Operation) (path : Path)
    (action : Disk → Except OsError Disk) :
    h.change operation path action
      = match h.answer operation path action with
        | .error e => (.error e, h.tick)
        | .ok disk => (.ok (), { h.tick with disk }) := by
  rw [change, attempt, answer]
  cases h.faults h.clock operation path with
  | some e => rfl
  | none => cases action h.disk <;> simp [Except.map, tick]

/-- What an operation gives is what the tree gives. -/
lemma eq_ok_of_answer {a : α} (ha : h.answer operation path action = .ok a) :
    action h.disk = .ok a := by
  rw [answer] at ha
  split at ha
  · exact absurd ha (by simp)
  · exact ha

/-- Two machines on which the same fails give the same, if their trees do. -/
lemma answer_eq (hs : h.faults.IsSteady) (hf : h'.faults = h.faults)
    (ha : action h'.disk = action h.disk) :
    h'.answer operation path action = h.answer operation path action := by
  rw [answer, answer, hf, hs h'.clock h.clock, ha]

/-- Time alone changes no answer. -/
lemma answer_tick (hs : h.faults.IsSteady) (operation : Operation) (path : Path)
    (action : Disk → Except OsError α) :
    h.tick.answer operation path action = h.answer operation path action :=
  answer_eq hs rfl rfl

end Host

end ImageMigration
