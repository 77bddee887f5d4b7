/-
Every source on its own.

An update goes through the sources one by one. What it makes of a source hangs on the text of that
source, and on what its owner may do with it, and no other source is touched meanwhile. So what
becomes of each one can be read off the machine as it was before, as if there were no other sources,
and the order in which they are taken tells nothing.

* `Updater.plan?`, `Updater.fate`: the plan for a source, and the four ways its update can end;
* `Updater.update_spec`: the update of one source, by its fate at the moment;
* `Updater.Agrees.fate_eq`: **a source that is as it was has the fate that it had**;
* `Updater.Accounts`, `Updater.Leaves`: what is told of some sources, and what is left of them;
  `Updater.EachAlone.step`, `Updater.eachAlone_foldl`: **this holds from source to source**;
* `Updater.Leaves.sameAt`: a source that is not written stays as it is;
* `Updater.EachAlone.reordered`: what updates in two orders have in common;
* `updateAll_isEachAlone`: **the whole statement.**
-/
import Mathlib.Data.List.Pairwise
import Mathlib.Data.List.Perm.Basic
import ImageMigration.Proofs.Disk.Untouched
import ImageMigration.Proofs.Plan.Edits
import ImageMigration.Proofs.Update.Files

namespace ImageMigration

open Disk (FilesDiffer)

/-! ### How an update ends -/

/-- How the update of a source ends. -/
inductive Fate where
  /-- it could not be read or understood -/
  | unreadable
  /-- there was nothing to write -/
  | untouched
  /-- it could not be written -/
  | unwritable
  /-- it has the edits of its plan, or would have them in a dry run -/
  | updated
  deriving DecidableEq

/-- How the sources of a project are updated. -/
structure Updater where
  parser : ParserOf
  lookup : Lookup
  project : Path
  dryRun : Bool

namespace Updater

/-- The text of a source and the plan for it, if it can be read and understood at this moment. -/
def plan? (u : Updater) (h : Host) (file : Path) : Option (Text × Plan) :=
  (h.answer .read file (·.readText? file)).toOption.bind fun source =>
    (u.parser.literals? file source).map fun literals =>
      (source, Plan.ofLiterals u.lookup ⟨u.project, file⟩ source literals)

/-- How the update of a source would end at this moment. -/
def fate (u : Updater) (h : Host) (file : Path) : Fate :=
  match u.plan? h file with
  | none => .unreadable
  | some (source, plan) =>
    if plan.edits.isEmpty then .untouched
    else if u.dryRun then .updated
    else if (h.answer .write file (·.write? file (plan.edited source).toUtf8)).isOk then .updated
    else .unwritable

/-- Whether a source goes on referring to a converted image. -/
def isUnedited (u : Updater) (h : Host) (file : Path) : Bool :=
  (u.plan? h file).any fun p => 0 < p.2.unedited

/-- The update of one source. -/
def update (u : Updater) (state : UpdateResult × Host) (file : Path) : UpdateResult × Host :=
  updateFile u.parser u.lookup u.project u.dryRun state file

/-- The source is written. -/
def Writes (u : Updater) (h : Host) (file : Path) : Prop :=
  u.dryRun = false ∧ u.fate h file = .updated

/-- Sources as they are told. -/
def told (u : Updater) (files : List Path) : List Path := files.map (·.relativeTo u.project)

end Updater

namespace UpdateResult

/-- The result with a source that goes on referring to a converted image, or not. -/
def note (result : UpdateResult) (unedited : Bool) (file : Path) : UpdateResult :=
  { result with unedited := result.unedited ++ if unedited then [file] else [] }

/-- The result with a source of the given fate. -/
def count (result : UpdateResult) (fate : Fate) (file : Path) : UpdateResult :=
  match fate with
  | .unreadable => result.addFailure file
  | .untouched => result
  | .unwritable => { result with writeFailures := result.writeFailures ++ [file] }
  | .updated => { result with updated := result.updated + 1 }

end UpdateResult

variable {u : Updater} {h h' : Host} {result : UpdateResult} {file : Path} {source : Text}
  {plan : Plan} {codes done : List Path} {l : Location}

namespace Updater

/-! ### One source -/

lemma plan?_of_error {e : OsError} (ha : h.answer .read file (·.readText? file) = .error e) :
    u.plan? h file = none := by
  rw [plan?, ha]
  rfl

lemma plan?_of_ok (ha : h.answer .read file (·.readText? file) = .ok source) :
    u.plan? h file = (u.parser.literals? file source).map fun literals =>
      (source, Plan.ofLiterals u.lookup ⟨u.project, file⟩ source literals) := by
  rw [plan?, ha]
  rfl

lemma fate_of_plan? (hplan : u.plan? h file = some (source, plan)) :
    u.fate h file
      = if plan.edits.isEmpty then .untouched
        else if u.dryRun then .updated
        else if (h.answer .write file (·.write? file (plan.edited source).toUtf8)).isOk then
          .updated
        else .unwritable := by rw [fate, hplan]

/-- What is noted of a plan, apart from how it is carried out. -/
lemma noteUnedited_eq (project file : Path) (plan : Plan) (result : UpdateResult) (h : Host) :
    (noteUnedited project file plan result h).1
        = result.note (decide (0 < plan.unedited)) (file.relativeTo project) ∧
      (noteUnedited project file plan result h).2.faults = h.faults ∧
      (noteUnedited project file plan result h).2.disk = h.disk := by
  rw [noteUnedited, UpdateResult.note]
  split
  · next hpos => exact ⟨by rw [decide_eq_true hpos, if_pos rfl], rfl, rfl⟩
  · next hno => exact ⟨by simp [hno], rfl, rfl⟩

/-- What writing comes to, by the answer of a machine on which the same fails. -/
lemma writeEdits_spec (hs : h.faults.IsSteady) (hf : h'.faults = h.faults) (hd : h'.disk = h.disk)
    (project file : Path) (source : Text) (plan : Plan) (result : UpdateResult) :
    let answer := h.answer .write file (·.write? file (plan.edited source).toUtf8)
    let after := writeEdits project file source plan result h'
    after.1 = result.count (if answer.isOk then .updated else .unwritable)
        (file.relativeTo project) ∧
      after.2.faults = h.faults ∧
      (answer.isOk = false ∧ after.2.disk = h.disk ∨ answer.isOk = true ∧
        h.disk.write? file (plan.edited source).toUtf8 = .ok after.2.disk) := by
  intro answer after
  have hanswer : (h'.reportAll (plan.droppingEvents source)).answer .write file
      (·.write? file (plan.edited source).toUtf8) = answer :=
    Host.answer_eq hs hf (by rw [Host.disk_reportAll, hd])
  have hends : WriteEnds project file source plan result
    (h'.reportAll (plan.droppingEvents source)) after := writeEnds project file source plan result h'
  clear_value after
  cases hends with
  | unwritable e hwrite =>
      rw [hanswer] at hwrite
      rw [hwrite]
      exact ⟨rfl, hf, Or.inl ⟨rfl, hd⟩⟩
  | written disk hwrite =>
      rw [hanswer] at hwrite
      rw [hwrite]
      exact ⟨rfl, hf, Or.inr ⟨rfl, Host.eq_ok_of_answer hwrite⟩⟩

/-- **What is told of a plan, and what is left of its source.** -/
lemma carryOut_spec (hs : h.faults.IsSteady) (hplan : u.plan? h file = some (source, plan))
    (hf : h'.faults = h.faults) (hd : h'.disk = h.disk) (result : UpdateResult) :
    let path := file.relativeTo u.project
    let after := carryOut u.project file source plan u.dryRun result h'
    after.1 = (result.note (u.isUnedited h file) path).count (u.fate h file) path ∧
      after.2.faults = h.faults ∧
      (¬ u.Writes h file ∧ after.2.disk = h.disk ∨
        u.Writes h file ∧ h.disk.write? file (plan.edited source).toUtf8 = .ok after.2.disk) := by
  intro path after
  have hunedited : u.isUnedited h file = decide (0 < plan.unedited) := by
    rw [isUnedited, hplan, Option.any_some]
  obtain ⟨hnoted, hnf, hnd⟩ := noteUnedited_eq u.project file plan result h'
  rw [← hunedited] at hnoted
  rw [hf] at hnf
  rw [hd] at hnd
  have hends : CarryOutEnds u.project file source plan u.dryRun
    (noteUnedited u.project file plan result h') after :=
      carryOutEnds u.project file source plan u.dryRun result h'
  generalize noteUnedited u.project file plan result h' = noted at hnoted hnf hnd hends
  clear_value after
  rw [← hnoted, Writes, fate_of_plan? hplan]
  cases hends with
  | untouched hedits =>
      rw [if_pos (List.isEmpty_iff.mpr hedits)]
      exact ⟨rfl, hnf, Or.inl ⟨by simp, hnd⟩⟩
  | previewed hedits hdry =>
      rw [if_neg (by simpa using hedits), if_pos hdry]
      exact ⟨rfl, hnf, Or.inl ⟨by simp [hdry], hnd⟩⟩
  | written hedits hwet =>
      obtain ⟨htold, hwf, hdisk⟩ := writeEdits_spec hs hnf hnd u.project file source plan noted.1
      rw [if_neg (by simpa using hedits), if_neg (by simp [hwet])]
      refine ⟨htold, hwf, hdisk.imp ?_ ?_⟩
      · rintro ⟨hno, hsame⟩
        exact ⟨by simp [hno], hsame⟩
      · rintro ⟨hyes, hwrite⟩
        exact ⟨⟨hwet, by simp [hyes]⟩, hwrite⟩

/-- A source that cannot be read or understood. -/
lemma unreadable_spec (hplan : u.plan? h file = none) (result : UpdateResult) (path : Path) :
    result.addFailure path = (result.note (u.isUnedited h file) path).count (u.fate h file) path ∧
      ¬ u.Writes h file := by
  have hfate : u.fate h file = .unreadable := by rw [fate, hplan]
  constructor
  · simp [UpdateResult.note, UpdateResult.count, hfate, isUnedited, hplan]
  · simp [Writes, hfate]

/-- **What is told of a source, and what is left of it,** by its fate at this moment. -/
lemma update_spec (hs : h.faults.IsSteady) (u : Updater) (result : UpdateResult) (file : Path) :
    let path := file.relativeTo u.project
    let after := u.update (result, h) file
    after.1 = (result.note (u.isUnedited h file) path).count (u.fate h file) path ∧
      after.2.faults = h.faults ∧
      (¬ u.Writes h file ∧ after.2.disk = h.disk ∨
        u.Writes h file ∧ ∃ source plan, u.plan? h file = some (source, plan) ∧
          h.disk.write? file (plan.edited source).toUtf8 = .ok after.2.disk) := by
  intro path after
  have hends : UpdateEnds u.parser u.lookup u.project u.dryRun result h file after :=
    updateEnds u.parser u.lookup u.project u.dryRun result h file
  clear_value after
  cases hends with
  | unread e hread =>
      obtain ⟨htold, hno⟩ := unreadable_spec (plan?_of_error (u := u) hread) result path
      exact ⟨htold, rfl, Or.inl ⟨hno, rfl⟩⟩
  | unparsed source hread hparse =>
      have hplan := plan?_of_ok (u := u) hread
      rw [hparse] at hplan
      obtain ⟨htold, hno⟩ := unreadable_spec hplan result path
      exact ⟨htold, rfl, Or.inl ⟨hno, rfl⟩⟩
  | planned source literals hread hparse =>
      have hplan := plan?_of_ok (u := u) hread
      rw [hparse, Option.map_some] at hplan
      let events := literals.flatMap (planEvents u.lookup ⟨u.project, file⟩ source)
      have hf : (h.tick.reportAll events).faults = h.faults := rfl
      obtain ⟨htold, hfaults, hdisk⟩ := carryOut_spec hs hplan hf rfl result
      refine ⟨htold, hfaults, hdisk.imp id ?_⟩
      exact And.imp_right fun hwrite => ⟨source, _, hplan, hwrite⟩

/-! ### A source among others -/

/-- The machines agree in what becomes of a source. -/
structure Agrees (h h' : Host) (file : Path) : Prop where
  steady : h.faults.IsSteady
  faults : h'.faults = h.faults
  differ : FilesDiffer h.disk h'.disk
  same : h.disk.SameAt h'.disk file

lemma Agrees.symm (ha : Agrees h h' file) : Agrees h' h file where
  steady := ha.faults ▸ ha.steady
  faults := ha.faults.symm
  differ := ha.differ.symm
  same := ha.differ.sameAt_symm ha.same

lemma answer_read_eq_ok_iff :
    h.answer .read file (·.readText? file) = .ok source ↔
      h.faults h.clock .read file = none ∧ h.disk.readText? file = .ok source := by
  rw [Host.answer]
  cases h.faults h.clock .read file <;> simp

lemma Agrees.answer_read (ha : Agrees h h' file)
    (hread : h.answer .read file (·.readText? file) = .ok source) :
    h'.answer .read file (·.readText? file) = .ok source := by
  rw [answer_read_eq_ok_iff] at hread ⊢
  rw [ha.faults, ha.steady h'.clock h.clock]
  exact ⟨hread.1, ha.differ.readText?_eq_ok ha.same hread.2⟩

lemma Agrees.plan?_eq (ha : Agrees h h' file) (u : Updater) : u.plan? h' file = u.plan? h file := by
  have hread : (h'.answer .read file (·.readText? file)).toOption
      = (h.answer .read file (·.readText? file)).toOption := by
    cases hr : h.answer .read file (·.readText? file) with
    | ok source => rw [ha.answer_read hr]
    | error e =>
        cases hr' : h'.answer .read file (·.readText? file) with
        | error e' => rfl
        | ok source =>
            rw [ha.symm.answer_read hr'] at hr
            exact absurd hr (by simp)
  rw [plan?, plan?, hread]

/-- A source for which there is a plan is a file. -/
lemma exists_find?_of_plan? (hplan : u.plan? h file = some (source, plan)) :
    (∃ l perms, h.disk.find? true file = .ok (l, ⟨.file source.toUtf8, perms⟩)) ∧
      ∃ literals, h.disk.ReadsAs u.parser file source literals ∧
        plan = Plan.ofLiterals u.lookup ⟨u.project, file⟩ source literals := by
  cases hr : h.answer .read file (·.readText? file) with
  | error e =>
      rw [plan?_of_error hr] at hplan
      exact absurd hplan (by simp)
  | ok text =>
      rw [plan?_of_ok hr, Option.map_eq_some_iff] at hplan
      obtain ⟨literals, hparse, heq⟩ := hplan
      rw [Prod.mk.injEq] at heq
      obtain ⟨rfl, rfl⟩ := heq
      have htext := Host.eq_ok_of_answer hr
      exact ⟨Disk.exists_find?_of_readText? htext, literals, ⟨htext, hparse⟩, rfl⟩

/-- **The fate of a source is the same on both machines.** -/
lemma Agrees.fate_eq (ha : Agrees h h' file) (u : Updater) : u.fate h' file = u.fate h file := by
  rw [fate, fate, ha.plan?_eq u]
  cases hplan : u.plan? h file with
  | none => rfl
  | some p =>
      obtain ⟨source, plan⟩ := p
      obtain ⟨⟨l, perms, hf⟩, -⟩ := exists_find?_of_plan? hplan
      have hwrite : (h'.answer .write file (·.write? file (plan.edited source).toUtf8)).isOk
          = (h.answer .write file (·.write? file (plan.edited source).toUtf8)).isOk := by
        rw [Host.answer, Host.answer, ha.faults, ha.steady h'.clock h.clock,
          Disk.write?_of_find? hf, Disk.write?_of_find? (ha.differ.find?_eq_ok ha.same hf)]
        cases h.faults h.clock .write file with
        | some e => rfl
        | none =>
            simp only [Node.isDir]
            cases perms.write <;> rfl
      simp only [hwrite]

lemma Agrees.isUnedited_eq (ha : Agrees h h' file) (u : Updater) :
    u.isUnedited h' file = u.isUnedited h file := by
  rw [isUnedited, isUnedited, ha.plan?_eq u]

/-! ### All sources -/

/-- The result tells of the sources what becomes of each one. -/
structure Accounts (u : Updater) (h : Host) (codes : List Path) (result : UpdateResult) : Prop where
  updated : result.updated = codes.countP (u.fate h · == .updated)
  parseFailures : result.parseFailures = u.told (codes.filter (u.fate h · == .unreadable))
  writeFailures : result.writeFailures = u.told (codes.filter (u.fate h · == .unwritable))
  unedited : result.unedited = u.told (codes.filter (u.isUnedited h ·))

/-- The source stands at the place, with the permissions that it had and the edits of its plan. -/
def HoldsEdited (u : Updater) (h : Host) (d : Disk) (file : Path) (l : Location) : Prop :=
  ∃ source plan text perms, h.disk.find? true file = .ok (l, ⟨.file source.toUtf8, perms⟩) ∧
    u.plan? h file = some (source, plan) ∧ Edit.applyAll? source plan.edits = some text ∧
    d.node? l = some ⟨.file text.toUtf8, perms⟩

/-- The tree has the edits of its plan in each source that is written, and is the same elsewhere.
Its entries stand in the order in which they stood. -/
structure Leaves (u : Updater) (h : Host) (codes : List Path) (d : Disk) : Prop where
  written : ∀ file ∈ codes, u.Writes h file → ∃ l, u.HoldsEdited h d file l
  others : ∀ l, (∀ file ∈ codes, u.Writes h file → h.disk.resolve? true file ≠ .ok l) →
    d.node? l = h.disk.node? l
  places : d.nodes.map Prod.fst = h.disk.nodes.map Prod.fst
  workingDir : d.workingDir = h.disk.workingDir

/-- What holds after some sources were updated. -/
structure EachAlone (u : Updater) (h : Host) (codes : List Path) (state : UpdateResult × Host) :
    Prop where
  accounts : u.Accounts h codes state.1
  leaves : u.Leaves h codes state.2.disk
  faults : state.2.faults = h.faults

variable {state : UpdateResult × Host} {d d' : Disk} {perms : Permissions} {l' : Location}

namespace HoldsEdited

lemma resolve?_eq (he : u.HoldsEdited h d file l) : h.disk.resolve? true file = .ok l := by
  obtain ⟨source, plan, text, perms, hf, -⟩ := he
  exact (Disk.find?_eq_ok_iff.mp hf).1

lemma isFree (he : u.HoldsEdited h d file l) : h.disk.IsFree l ∧ d.IsFree l := by
  obtain ⟨source, plan, text, perms, hf, -, -, hnode⟩ := he
  exact ⟨Or.inr ⟨_, _, (Disk.find?_eq_ok_iff.mp hf).2⟩, Or.inr ⟨_, _, hnode⟩⟩

lemma congr (he : u.HoldsEdited h d file l) (hsame : d'.node? l = d.node? l) :
    u.HoldsEdited h d' file l := by
  obtain ⟨source, plan, text, perms, hf, hplan, hedited, hnode⟩ := he
  exact ⟨source, plan, text, perms, hf, hplan, hedited, hsame.trans hnode⟩

/-- There is one way in which a source has the edits of its plan. -/
lemma node?_eq (he : u.HoldsEdited h d file l) (he' : u.HoldsEdited h d' file l') :
    d'.node? l = d.node? l := by
  obtain ⟨source, plan, text, perms, hf, hplan, hedited, hnode⟩ := he
  obtain ⟨source', plan', text', perms', hf', hplan', hedited', hnode'⟩ := he'
  rw [hf, Except.ok.injEq, Prod.mk.injEq, Node.mk.injEq] at hf'
  obtain ⟨rfl, -, rfl⟩ := hf'
  rw [hplan, Option.some.injEq, Prod.mk.injEq] at hplan'
  obtain ⟨rfl, rfl⟩ := hplan'
  obtain rfl : text = text' := Option.some.inj (hedited.symm.trans hedited')
  rw [hnode, hnode']

end HoldsEdited

lemma eachAlone_nil (u : Updater) (h : Host) : u.EachAlone h [] (.empty, h) where
  accounts := ⟨rfl, rfl, rfl, rfl⟩
  leaves := ⟨fun _ hf => absurd hf (by simp), fun _ _ => rfl, rfl, rfl⟩
  faults := rfl

/-- At each place there is a source with its edits, or what was there. -/
lemma Leaves.node?_cases (hl : u.Leaves h codes d) (l : Location) :
    (∃ file ∈ codes, u.Writes h file ∧ u.HoldsEdited h d file l) ∨
      (∀ file ∈ codes, u.Writes h file → h.disk.resolve? true file ≠ .ok l) ∧
        d.node? l = h.disk.node? l := by
  by_cases hex : ∃ file ∈ codes, u.Writes h file ∧ h.disk.resolve? true file = .ok l
  · obtain ⟨file, hmem, hw, hplace⟩ := hex
    obtain ⟨l', he⟩ := hl.written file hmem hw
    obtain rfl : l' = l := Except.ok.inj (he.resolve?_eq.symm.trans hplace)
    exact Or.inl ⟨file, hmem, hw, he⟩
  · have hno : ∀ file ∈ codes, u.Writes h file → h.disk.resolve? true file ≠ .ok l :=
      fun file hmem hw hplace => hex ⟨file, hmem, hw, hplace⟩
    exact Or.inr ⟨hno, hl.others l hno⟩

/-- What was left differs in sources only. -/
lemma Leaves.filesDiffer (hl : u.Leaves h codes d) : FilesDiffer h.disk d where
  workingDir := hl.workingDir
  node l := by
    rcases hl.node?_cases l with ⟨file, -, -, he⟩ | ⟨-, hsame⟩
    · exact Or.inr he.isFree
    · exact Or.inl hsame

/-- A source that is not written stays as it is. -/
lemma Leaves.sameAt (hl : u.Leaves h codes d) (hapart : codes.Pairwise h.disk.DenoteApart)
    (hmem : file ∈ codes) (hw : ¬ u.Writes h file) : h.disk.SameAt d file := by
  have : Std.Symm h.disk.DenoteApart := ⟨fun _ _ => Disk.DenoteApart.symm⟩
  refine fun l hplace => hl.others l fun f hf hwf hplace' => ?_
  have hne : f ≠ file := by
    rintro rfl
    exact hw hwf
  exact hapart.forall hf hmem hne l hplace' hplace

/-- One more source is as it was. -/
lemma EachAlone.agrees (he : u.EachAlone h done state) (hs : h.faults.IsSteady)
    (hapart : ∀ f ∈ done, h.disk.DenoteApart f file) : Agrees h state.2 file where
  steady := hs
  faults := he.faults
  differ := he.leaves.filesDiffer
  same l hl := he.leaves.others l fun f hf _ hl' => hapart f hf l hl' hl

lemma told_filter_concat (u : Updater) (p : Path → Bool) (codes : List Path) (file : Path) :
    u.told ((codes ++ [file]).filter p)
      = u.told (codes.filter p) ++ if p file then [file.relativeTo u.project] else [] := by
  rw [List.filter_append, told, List.map_append, ← told]
  cases hp : p file <;> simp [hp]

/-- The result with one more source. -/
lemma Accounts.concat (ha : u.Accounts h done result) (file : Path) :
    let path := file.relativeTo u.project
    u.Accounts h (done ++ [file])
      ((result.note (u.isUnedited h file) path).count (u.fate h file) path) where
  updated := by
    rw [List.countP_append, List.countP_singleton, ← ha.updated]
    cases u.fate h file <;> rfl
  parseFailures := by
    rw [told_filter_concat, ← ha.parseFailures]
    cases u.fate h file <;> simp [UpdateResult.count, UpdateResult.note, UpdateResult.addFailure]
  writeFailures := by
    rw [told_filter_concat, ← ha.writeFailures]
    cases u.fate h file <;> simp [UpdateResult.count, UpdateResult.note, UpdateResult.addFailure]
  unedited := by
    rw [told_filter_concat, ← ha.unedited]
    cases u.fate h file <;> rfl

/-- The tree after one more source that is not written. -/
lemma Leaves.concat_same (hl : u.Leaves h done d) (hw : ¬ u.Writes h file) :
    u.Leaves h (done ++ [file]) d where
  written f hf hwf := by
    rcases List.mem_append.mp hf with hf | hf
    · exact hl.written f hf hwf
    · rw [List.mem_singleton.mp hf] at hwf
      exact absurd hwf hw
  others l hno := hl.others l fun f hf => hno f (List.mem_append_left _ hf)
  places := hl.places
  workingDir := hl.workingDir

/-- The tree after one more source that is written. -/
lemma Leaves.concat_put {text : Text} (hl : u.Leaves h done d)
    (hapart : ∀ f ∈ done, h.disk.DenoteApart f file) (hw : u.Writes h file)
    (hf : h.disk.find? true file = .ok (l, ⟨.file source.toUtf8, perms⟩))
    (hplan : u.plan? h file = some (source, plan))
    (hedited : Edit.applyAll? source plan.edits = some text) :
    u.Leaves h (done ++ [file]) (d.put l ⟨.file text.toUtf8, perms⟩) := by
  obtain ⟨hplace, hnode⟩ := Disk.find?_eq_ok_iff.mp hf
  have hne : l ≠ [] := Disk.IsFree.ne_nil (Or.inr ⟨_, _, hnode⟩)
  have hother : ∀ l' ≠ l, (d.put l ⟨.file text.toUtf8, perms⟩).node? l' = d.node? l' := by
    intro l' hl'
    rw [Disk.node?_put hne, if_neg hl']
  constructor
  · intro f hf' hwf
    rcases List.mem_append.mp hf' with hdone | hlast
    · obtain ⟨l', he⟩ := hl.written f hdone hwf
      refine ⟨l', he.congr (hother l' ?_)⟩
      rintro rfl
      exact hapart f hdone _ he.resolve?_eq hplace
    · rw [List.mem_singleton.mp hlast]
      refine ⟨l, source, plan, text, perms, hf, hplan, hedited, ?_⟩
      rw [Disk.node?_put hne, if_pos rfl]
  · intro l' hno
    rw [hother l' ?_]
    · exact hl.others l' fun f hf' => hno f (List.mem_append_left _ hf')
    · rintro rfl
      exact hno file (by simp) hw hplace
  · have hold : l ∈ d.nodes.map Prod.fst := by
      rw [hl.places]
      exact List.mem_map_of_mem (Disk.mem_of_node? hne hnode)
    rw [← hl.places, Disk.put, Disk.map_fst_putIn, if_pos hold]
  · exact hl.workingDir

/-- **One more source** is updated as if there were no other ones. -/
lemma EachAlone.step (he : u.EachAlone h done state) (hs : h.faults.IsSteady)
    (hapart : ∀ f ∈ done, h.disk.DenoteApart f file)
    (hparser : ∀ source literals, h.disk.ReadsAs u.parser file source literals →
      Literal.KeepApart source literals) :
    u.EachAlone h (done ++ [file]) (u.update state file) := by
  have ha := he.agrees hs hapart
  have hs' : state.2.faults.IsSteady := ha.symm.steady
  obtain ⟨htold, hfaults, hdisk⟩ := update_spec hs' u state.1 file
  rw [ha.fate_eq, ha.isUnedited_eq] at htold
  refine ⟨?_, ?_, hfaults.trans he.faults⟩
  · rw [htold]
    exact he.accounts.concat file
  rw [Writes, ha.fate_eq, ← Writes] at hdisk
  rcases hdisk with ⟨hno, hsame⟩ | ⟨hw, source, plan, hplan, hwrite⟩
  · rw [hsame]
    exact he.leaves.concat_same hno
  · rw [ha.plan?_eq] at hplan
    obtain ⟨⟨l, perms, hf⟩, literals, hread, rfl⟩ := exists_find?_of_plan? hplan
    have hstrings : Literal.AreStrings source literals := by
      have hkeep := hparser source literals hread
      obtain ⟨found, -, rfl⟩ := Option.map_eq_some_iff.mp hread.parse
      exact Literal.areStrings_map_collected hkeep
    obtain ⟨text, hedited, -⟩ := Plan.edited_ofLiterals hstrings u.lookup ⟨u.project, file⟩
    have htext :
        (Plan.ofLiterals u.lookup ⟨u.project, file⟩ source literals).edited source = text := by
      rw [Plan.edited, hedited]
      rfl
    rw [htext, Disk.write?_of_find? (ha.differ.find?_eq_ok ha.same hf)] at hwrite
    have hput : (u.update state file).2.disk = state.2.disk.put l ⟨.file text.toUtf8, perms⟩ := by
      simp only [Node.isDir, Bool.false_eq_true, if_false] at hwrite
      split at hwrite
      · exact (Except.ok.inj hwrite).symm
      · exact absurd hwrite (by simp)
    rw [hput]
    exact he.leaves.concat_put hapart hw hf hplan hedited

/-- **All sources** are updated as if each one were the only one. -/
lemma eachAlone_foldl (hs : h.faults.IsSteady) (hapart : codes.Pairwise h.disk.DenoteApart)
    (hparser : ∀ file ∈ codes, ∀ source literals, h.disk.ReadsAs u.parser file source literals →
      Literal.KeepApart source literals) :
    u.EachAlone h codes (codes.foldl u.update (.empty, h)) := by
  induction codes using List.reverseRecOn with
  | nil => exact eachAlone_nil u h
  | append_singleton done file ih =>
      obtain ⟨hdone, -, hlast⟩ := List.pairwise_append.mp hapart
      rw [List.foldl_append, List.foldl_cons, List.foldl_nil]
      have hprev := ih hdone fun f hf => hparser f (List.mem_append_left _ hf)
      exact hprev.step hs (fun f hf => hlast f hf file (by simp)) (hparser file (by simp))

/-! ### The order of the sources -/

/-- Two updates that leave the same tree and tell of the same sources, though not in one order. -/
structure Reordered (state state' : UpdateResult × Host) : Prop where
  updated : state'.1.updated = state.1.updated
  parseFailures : state'.1.parseFailures.Perm state.1.parseFailures
  writeFailures : state'.1.writeFailures.Perm state.1.writeFailures
  unedited : state'.1.unedited.Perm state.1.unedited
  node : ∀ l, state'.2.disk.node? l = state.2.disk.node? l
  places : state'.2.disk.nodes.map Prod.fst = state.2.disk.nodes.map Prod.fst

/-- **The same tree is left,** in whatever order the sources are updated. -/
lemma Leaves.node?_eq {codes' : List Path} (hl : u.Leaves h codes d) (hl' : u.Leaves h codes' d')
    (hperm : codes'.Perm codes) (l : Location) : d'.node? l = d.node? l := by
  rcases hl.node?_cases l with ⟨file, hmem, hw, he⟩ | ⟨hno, hsame⟩
  · obtain ⟨l', he'⟩ := hl'.written file (hperm.mem_iff.mpr hmem) hw
    exact he.node?_eq he'
  · rw [hsame, hl'.others l fun file hmem => hno file (hperm.mem_iff.mp hmem)]

/-- **The order of the sources tells nothing.** -/
lemma EachAlone.reordered {codes' : List Path} {state' : UpdateResult × Host}
    (he : u.EachAlone h codes state) (he' : u.EachAlone h codes' state')
    (hperm : codes'.Perm codes) : Reordered state state' where
  updated := by rw [he.accounts.updated, he'.accounts.updated, hperm.countP_eq]
  parseFailures := by
    rw [he.accounts.parseFailures, he'.accounts.parseFailures]
    exact (hperm.filter _).map _
  writeFailures := by
    rw [he.accounts.writeFailures, he'.accounts.writeFailures]
    exact (hperm.filter _).map _
  unedited := by
    rw [he.accounts.unedited, he'.accounts.unedited]
    exact (hperm.filter _).map _
  node := he.leaves.node?_eq he'.leaves hperm
  places := he'.leaves.places.trans he.leaves.places.symm

/-- The sources fall into four classes. -/
lemma countP_fate (u : Updater) (h : Host) (codes : List Path) :
    codes.countP (u.fate h · == .unreadable) + codes.countP (u.fate h · == .untouched) +
      codes.countP (u.fate h · == .unwritable) + codes.countP (u.fate h · == .updated)
      = codes.length := by
  induction codes with
  | nil => rfl
  | cons file codes ih =>
      simp only [List.countP_cons, List.length_cons]
      cases u.fate h file <;> simp <;> omega

end Updater

/-- **Every source is updated as if it were the only one.** It is unreadable, untouched, unwritable
or updated, as it would be with no other sources around, and the result tells so: its lists hold the
sources of a class in their order, and the four classes make up all sources. What is written has the
edits of its plan and the permissions that it had, and all else is as it was. In another order of
the sources the lists of the result have another order as well, and the tree is the same. -/
theorem updateAll_isEachAlone {parser : ParserOf} {outcomes : List Outcome} (project : Path)
    (dryRun : Bool) (hs : h.faults.IsSteady) (hsome : Lookup.ofOutcomes outcomes ≠ [])
    (hapart : codes.Pairwise h.disk.DenoteApart)
    (hparser : ∀ file ∈ codes, ∀ source literals, h.disk.ReadsAs parser file source literals →
      Literal.KeepApart source literals) :
    let u : Updater := ⟨parser, Lookup.ofOutcomes outcomes, project, dryRun⟩
    let run := updateAll parser codes outcomes project dryRun h
    u.Accounts h codes run.1 ∧ u.Leaves h codes run.2.disk ∧
      (∀ file ∈ codes, ¬ u.Writes h file → h.disk.SameAt run.2.disk file) ∧
      run.1.parseFailures.length + codes.countP (u.fate h · == .untouched) +
        run.1.writeFailures.length + run.1.updated = codes.length ∧
      ∀ codes' : List Path, codes'.Perm codes →
        Updater.Reordered run (updateAll parser codes' outcomes project dryRun h) := by
  intro u run
  have hrun : ∀ files, updateAll parser files outcomes project dryRun h
      = files.foldl u.update (.empty, h) := by
    intro files
    rw [updateAll, if_neg (by simpa using hsome)]
    rfl
  have heach : u.EachAlone h codes run := by
    rw [show run = _ from hrun codes]
    exact Updater.eachAlone_foldl hs hapart hparser
  refine ⟨heach.accounts, heach.leaves, fun file hf hw => heach.leaves.sameAt hapart hf hw, ?_, ?_⟩
  · have htotal := u.countP_fate h codes
    rw [heach.accounts.parseFailures, heach.accounts.writeFailures, heach.accounts.updated]
    simpa [Updater.told, List.countP_eq_length_filter] using htotal
  · intro codes' hperm
    refine heach.reordered ?_ hperm
    rw [hrun codes']
    refine Updater.eachAlone_foldl hs ?_ fun file hf => hparser file (hperm.mem_iff.mp hf)
    exact hapart.perm hperm.symm Disk.DenoteApart.symm

/-- A project with four sources. Two of them refer to an image, and one of these may not be written.
The third one refers to no image, and the last one is no source. -/
def fourSources : Disk :=
  let source : Content := .file (Text.toUtf8 "f('/i.png')".toList)
  { nodes :=
      [(["p".toList], ⟨.dir, .all⟩),
       (["p".toList, "a.ts".toList], ⟨source, .all⟩),
       (["p".toList, "b.ts".toList], ⟨source, ⟨true, false, false⟩⟩),
       (["p".toList, "c.ts".toList], ⟨.file (Text.toUtf8 "f()".toList), .all⟩),
       (["p".toList, "d.ts".toList], ⟨.file (Text.toUtf8 "'".toList), .all⟩)]
    workingDir := [] }

/-- Their paths. -/
def fourPaths : List Path :=
  [⟨"/p/a.ts".toList⟩, ⟨"/p/b.ts".toList⟩, ⟨"/p/c.ts".toList⟩, ⟨"/p/d.ts".toList⟩]

/-- What is read from the four sources keeps apart. -/
lemma keepApart_fourSources {source : Text} {literals : List Literal} (hfile : file ∈ fourPaths)
    (hread : fourSources.ReadsAs Script.literals? file source literals) :
    Literal.KeepApart source literals := by
  have hone : Literal.KeepApart "f('/i.png')".toList [.string ⟨2, 10⟩ "/i.png".toList true] :=
    .singleton (by decide +kernel)
  have hnone : Literal.KeepApart "f()".toList [] :=
    ⟨fun _ _ _ hl => absurd hl (by simp), fun _ _ _ _ _ _ hl => absurd hl (by simp)⟩
  simp only [fourPaths, List.mem_cons, List.not_mem_nil, or_false] at hfile
  rcases hfile with rfl | rfl | rfl | rfl
  · have ha : fourSources.ReadsAs Script.literals? ⟨"/p/a.ts".toList⟩ "f('/i.png')".toList
        [.string ⟨2, 10⟩ "/i.png".toList true] := ⟨by decide +kernel, by decide +kernel⟩
    obtain ⟨rfl, rfl⟩ := ha.unique hread
    exact hone
  · have hb : fourSources.ReadsAs Script.literals? ⟨"/p/b.ts".toList⟩ "f('/i.png')".toList
        [.string ⟨2, 10⟩ "/i.png".toList true] := ⟨by decide +kernel, by decide +kernel⟩
    obtain ⟨rfl, rfl⟩ := hb.unique hread
    exact hone
  · have hc : fourSources.ReadsAs Script.literals? ⟨"/p/c.ts".toList⟩ "f()".toList [] :=
      ⟨by decide +kernel, by decide +kernel⟩
    obtain ⟨rfl, rfl⟩ := hc.unique hread
    exact hnone
  · have htext : fourSources.readText? ⟨"/p/d.ts".toList⟩ = .ok "'".toList := by decide +kernel
    have hparse : ParserOf.literals? Script.literals? ⟨"/p/d.ts".toList⟩ "'".toList = none := by
      decide +kernel
    obtain rfl : source = "'".toList := Except.ok.inj (hread.text.symm.trans htext)
    exact absurd (hread.parse.symm.trans hparse) (by simp)

/-- Each of four sources ends in another class, and they do so in the other order as well. -/
theorem updateAll_isEachAlone_of_four :
    let codes := fourPaths
    let outcomes : List Outcome :=
      [{ image := ⟨"/p/public/i.png".toList⟩, converted := ⟨"/p/public/i.webp".toList⟩
         oldSize := 2, newSize := 1, skipped := false, error := none }]
    let h := Host.ofDisk fourSources
    let run := updateAll Script.literals? codes outcomes ⟨"/p".toList⟩ false h
    let run' := updateAll Script.literals? codes.reverse outcomes ⟨"/p".toList⟩ false h
    h.faults.IsSteady ∧ Lookup.ofOutcomes outcomes ≠ [] ∧ codes.Pairwise h.disk.DenoteApart ∧
      (∀ file ∈ codes, ∀ source literals, h.disk.ReadsAs Script.literals? file source literals →
        Literal.KeepApart source literals) ∧
      run.1 = ⟨1, [⟨"d.ts".toList⟩], [⟨"b.ts".toList⟩], []⟩ ∧
      run.2.disk.readText? ⟨"/p/a.ts".toList⟩ = .ok "f('/i.webp')".toList ∧
      Updater.Reordered run run' := by
  intro codes outcomes h run run'
  have hs : h.faults.IsSteady := fun _ _ _ _ => rfl
  have hsome : Lookup.ofOutcomes outcomes ≠ [] := by decide +kernel
  have htree : fourSources.IsTree := by decide +kernel
  have hplaces : ∀ p ∈ codes, p.IsPlace := by decide +kernel
  have hapart : codes.Pairwise h.disk.DenoteApart :=
    Disk.pairwise_denoteApart htree.hasNoLinks hplaces (by decide +kernel)
  have hparser : ∀ file ∈ codes, ∀ source literals,
      h.disk.ReadsAs Script.literals? file source literals → Literal.KeepApart source literals :=
    fun file hfile source literals hread => keepApart_fourSources hfile hread
  have hrun : run.1 = ⟨1, [⟨"d.ts".toList⟩], [⟨"b.ts".toList⟩], []⟩ ∧
      run.2.disk.readText? ⟨"/p/a.ts".toList⟩ = .ok "f('/i.webp')".toList := by decide +kernel
  obtain ⟨-, -, -, -, horder⟩ := updateAll_isEachAlone ⟨"/p".toList⟩ false hs hsome hapart hparser
  exact ⟨hs, hsome, hapart, hparser, hrun.1, hrun.2, horder _ codes.reverse_perm⟩

end ImageMigration
