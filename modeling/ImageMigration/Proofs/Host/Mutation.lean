/-
Changes of files, and the lines of the log that tell of them.

A machine goes on by operations and by lines of the log. Where each operation that changed a file is
followed by its line at once, and no other line looks like one, the log tells the changes in their
order, and they can be made again from it.

* `Event.isChange_iff`: the lines that tell of a change are known by how they begin;
* `Mutation`: a change of a file, with its line `Mutation.event`; `Mutation.replay?` makes a list of
  changes;
* `Host.Performs`: one machine follows from another by changes that are told at once;
* `Host.Performs.exists_log_eq`, `Host.Performs.replay?_eq`: **what was told is what was done**;
* `Mutation.filesChanged_replay?`: all other files stay.
-/
import ImageMigration.Conversion
import ImageMigration.Proofs.Cleanup.Deletion

namespace ImageMigration

open Disk (FilesChanged)

/-! ### Lines that tell of a change -/

/-- Whether an event tells of a change to a file. -/
def Event.isChange : Event → Bool
  | changed .. => true
  | _ => false

/-- How the lines begin that tell of a change. -/
def changeStart : Text := "INFO FS CHANGE ".toList

/-- **The lines that tell of a change** are known by how they begin: a line that starts with a text
of the project has another level. -/
lemma Event.isChange_iff (e : Event) : e.isChange = true ↔ changeStart <+: e.line := by
  have heq : e.isChange = changeStart.isPrefixOf e.line := by
    cases e with
    | changed operation path details => cases details <;> rfl
    | _ => rfl
  rw [heq, List.isPrefixOf_iff_prefix]

/-- They are told in every log that is not limited to failures. -/
lemma Event.isLogged_of_isChange {e : Event} {level : Level} (hlevel : Level.info.rank ≤ level.rank)
    (h : e.isChange = true) : e.isLogged level = true := by
  cases e with
  | changed operation path details => exact decide_eq_true hlevel
  | _ => exact absurd h (by simp [isChange])

/-- The lines of a log that tell of a change. -/
def changeLines (level : Level) (log : List Event) : List Text :=
  ((log.filter (Event.isLogged level)).map Event.line).filter changeStart.isPrefixOf

lemma changeLines_eq {level : Level} (hlevel : Level.info.rank ≤ level.rank) (log : List Event) :
    changeLines level log = (log.filter Event.isChange).map Event.line := by
  rw [changeLines, List.filter_map, List.filter_filter]
  congr 1
  refine List.filter_congr fun e _ => ?_
  rw [Bool.eq_iff_iff, Bool.and_eq_true, Function.comp_apply, List.isPrefixOf_iff_prefix,
    ← Event.isChange_iff]
  exact ⟨fun h => h.1, fun h => ⟨h, Event.isLogged_of_isChange hlevel h⟩⟩

/-! ### Changes -/

/-- A change of a file. -/
inductive Mutation where
  /-- a new image, for one of the given size -/
  | write (target : Path) (oldSize : Nat) (bytes : Bytes)
  /-- the edits of a plan in a source -/
  | update (file : Path) (source : Text) (plan : Plan)
  | delete (file : Path)

namespace Mutation

/-- The file that is changed. -/
def path : Mutation → Path
  | write target _ _ => target
  | update file _ _ => file
  | delete file => file

/-- The operation that makes the change. -/
def operation : Mutation → Operation
  | write .. => .write
  | update .. => .write
  | delete .. => .delete

/-- The tree after the change. -/
def after? (c : Mutation) (d : Disk) : Except OsError Disk :=
  match c with
  | write target _ bytes => d.write? target bytes
  | update file source plan => d.write? file (plan.edited source).toUtf8
  | delete file => d.remove? file

/-- The line in the log. -/
def event : Mutation → Event
  | write target oldSize bytes =>
    .changed .write target (some (sizeDetails oldSize bytes.size))
  | update file _ plan => .changed .update file (some (updateDetails plan.edits))
  | delete file => .changed .delete file none

/-- The tree after a list of changes. -/
def replay? : List Mutation → Disk → Except OsError Disk
  | [], d => .ok d
  | c :: rest, d =>
    match c.after? d with
    | .error e => .error e
    | .ok d => replay? rest d

lemma isChange_event (c : Mutation) : c.event.isChange = true := by cases c <;> rfl

lemma replay?_concat (cs : List Mutation) (c : Mutation) (d : Disk) :
    replay? (cs ++ [c]) d
      = match replay? cs d with
        | .error e => .error e
        | .ok d => c.after? d := by
  induction cs generalizing d with
  | nil => cases hafter : c.after? d <;> simp [replay?, hafter]
  | cons first cs ih =>
      rw [List.cons_append, replay?, replay?]
      cases first.after? d with
      | error e => rfl
      | ok d => exact ih d

/-- A change at a place changes that place only. -/
lemma filesChanged_after? {c : Mutation} {d d' : Disk} (hd : d.HasNoLinks) (hc : c.path.IsPlace)
    (hafter : c.after? d = .ok d') : FilesChanged (· = Listing.place c.path) d d' := by
  have hwrite : ∀ (p : Path) bytes, p.IsPlace → d.write? p bytes = .ok d' →
      FilesChanged (· = Listing.place p) d d' := by
    intro p bytes hp hw
    rw [← hp.2] at hw
    exact Disk.filesChanged_write? hd hp.1 hw
  cases c with
  | write target oldSize bytes => exact hwrite _ _ hc hafter
  | update file source plan => exact hwrite _ _ hc hafter
  | delete file => exact (Disk.remove?_of_isPlace hd hc hafter).2.2

/-- What each change of a list preserves holds after all of them. -/
lemma replay?_preserves {Holds : Disk → Prop} {cs : List Mutation} {d d' : Disk}
    (hstep : ∀ c ∈ cs, ∀ e e', Holds e → c.after? e = .ok e' → Holds e') (hd : Holds d)
    (hreplay : replay? cs d = .ok d') : Holds d' := by
  induction cs generalizing d with
  | nil =>
      rw [replay?, Except.ok.injEq] at hreplay
      exact hreplay ▸ hd
  | cons c cs ih =>
      rw [replay?] at hreplay
      cases hafter : c.after? d with
      | error e =>
          rw [hafter] at hreplay
          exact absurd hreplay (by simp)
      | ok after =>
          rw [hafter] at hreplay
          exact ih (fun c' hc' => hstep c' (by simp [hc'])) (hstep c (by simp) _ _ hd hafter) hreplay

/-- **Changes leave all other files.** -/
lemma filesChanged_replay? {cs : List Mutation} {d d' : Disk} (hd : d.HasNoLinks)
    (hcs : ∀ c ∈ cs, c.path.IsPlace) (hreplay : replay? cs d = .ok d') :
    FilesChanged (fun l => ∃ c ∈ cs, Listing.place c.path = l) d d' := by
  refine replay?_preserves (fun c hc e e' he hafter => ?_) (FilesChanged.refl _ d) hreplay
  refine he.trans ((filesChanged_after? (he.hasNoLinks hd) (hcs c hc) hafter).mono ?_)
  rintro l rfl
  exact ⟨c, hc, rfl⟩

end Mutation

/-! ### Machines that go on -/

namespace Host

variable {h h' h'' : Host} {cs cs' : List Mutation}

/-- The second machine follows from the first by operations and lines of the log. Of the operations,
the given changes were made in their order, each told at once; all others changed nothing, and no
other line tells of a change. -/
inductive Performs (h : Host) : List Mutation → Host → Prop where
  | refl : Performs h [] h
  | report {cs : List Mutation} {h' : Host} {e : Event} (before : Performs h cs h')
      (hquiet : e.isChange = false) : Performs h cs (h'.report e)
  | tick {cs : List Mutation} {h' : Host} (before : Performs h cs h') : Performs h cs h'.tick
  | mutate {cs : List Mutation} {h' : Host} {c : Mutation} {disk : Disk}
      (before : Performs h cs h') (hdone : h'.answer c.operation c.path c.after? = .ok disk) :
      Performs h (cs ++ [c]) (Host.report { h'.tick with disk } c.event)

lemma Performs.trans (first : h.Performs cs h') (second : h'.Performs cs' h'') :
    h.Performs (cs ++ cs') h'' := by
  induction second with
  | refl => rwa [List.append_nil]
  | report _ hquiet ih => exact ih.report hquiet
  | tick _ ih => exact ih.tick
  | mutate _ hdone ih =>
      rw [← List.append_assoc]
      exact ih.mutate hdone

/-- What follows from nothing done is what follows. -/
lemma Performs.after (second : h'.Performs cs h'') (first : h.Performs [] h') :
    h.Performs cs h'' := first.trans second

lemma Performs.reportAll (before : h.Performs cs h') {es : List Event}
    (hquiet : ∀ e ∈ es, e.isChange = false) : h.Performs cs (h'.reportAll es) := by
  induction es generalizing h' with
  | nil =>
      rw [Host.reportAll, List.append_nil]
      exact before
  | cons e es ih =>
      have hrest := ih (before.report (hquiet e (by simp))) fun e' he' => hquiet e' (by simp [he'])
      rw [Host.reportAll, Host.report] at hrest
      rw [Host.reportAll]
      simpa using hrest

/-- **The log tells the changes in their order.** -/
lemma Performs.exists_log_eq (hp : h.Performs cs h') :
    ∃ told, h'.log = h.log ++ told ∧ told.filter Event.isChange = cs.map Mutation.event := by
  induction hp with
  | refl => exact ⟨[], (List.append_nil _).symm, rfl⟩
  | @report cs h' e _ hquiet ih =>
      obtain ⟨told, hlog, hchanges⟩ := ih
      refine ⟨told ++ [e], ?_, ?_⟩
      · rw [Host.report, hlog, List.append_assoc]
      · rw [List.filter_append, hchanges, List.filter_cons_of_neg (by simpa using hquiet),
          List.filter_nil, List.append_nil]
  | tick _ ih => exact ih
  | @mutate cs h' c disk _ hdone ih =>
      obtain ⟨told, hlog, hchanges⟩ := ih
      refine ⟨told ++ [c.event], ?_, ?_⟩
      · rw [← List.append_assoc, ← hlog]
        rfl
      · rw [List.filter_append, hchanges, List.filter_cons_of_pos c.isChange_event, List.map_append]
        rfl

/-- **The changes lead from one tree to the other.** -/
lemma Performs.replay?_eq (hp : h.Performs cs h') :
    Mutation.replay? cs h.disk = .ok h'.disk := by
  induction hp with
  | refl => rfl
  | report _ _ ih => exact ih
  | tick _ ih => exact ih
  | mutate _ hdone ih =>
      rw [Mutation.replay?_concat, ih]
      exact eq_ok_of_answer hdone

end Host

end ImageMigration
