/-
Converting a list of images side by side.

The images of a batch share one tree. Each of them is measured, encoded and stored in its own time,
and a schedule tells whose turn it is. A step gives the same on any two machines that look alike to
the image: on the one it shares, and on one that it has to itself.

* `Progress`, `Batch.step`: how far an image has come, and its next step;
* `Batch.play`: the turns of a schedule; `Batch.State.IsDone`: nobody is left;
* `Batch.alone_done`: the steps of an image that has the machine to itself are its conversion;
* `Batch.Agree`: two machines look alike to an image;
* `Batch.step_agrees`: **a step in the batch is the step alone**, seen at the progress and at the
  tree.
-/
import ImageMigration.Proofs.Conversion.Answers
import ImageMigration.Proofs.Conversion.Target
import ImageMigration.Proofs.Disk.Change

namespace ImageMigration

open Disk (pathOf FilesChanged)

/-! ### Batches -/

/-- How far the conversion of an image has come. -/
inductive Progress where
  | waiting
  | measured (size : Nat)
  | encoded (size : Nat) (bytes : Bytes)
  | done (outcome : Outcome)

/-- Images that are converted side by side. -/
structure Batch where
  converter : Converter
  images : List Path
  quality : Nat
  dryRun : Bool

/-- A batch under way: the images with their progress, and the machine they share. -/
structure Batch.State where
  tasks : List (Path × Progress)
  host : Host

/-- The outcome of an image, once there is one. -/
def Progress.outcome? : Progress → Option Outcome
  | done o => some o
  | _ => none

lemma Progress.eq_done_of_outcome? {p : Progress} {o : Outcome} (h : p.outcome? = some o) :
    p = .done o := by
  cases p <;> simp_all [outcome?]

namespace Batch

/-- The next step of an image: it is measured, encoded, or stored. An image without a target for
itself is refused at once. -/
def step (b : Batch) (image : Path) : Progress → Host → Progress × Host
  | .waiting, h =>
    if b.converter.collides b.images image then
      (.done (.failed image (collisionMessage (b.converter.target image))), h)
    else match h.look .stat image (·.size? image) with
      | (.error e, h) =>
        let (o, h) := giveUp h .stat image e.message
        (.done o, h)
      | (.ok size, h) => (.measured size, h)
  | .measured size, h =>
    match b.converter.run image b.quality h with
    | (.error failure, h) =>
      let (o, h) := giveUp h .encode image failure.message
      (.done o, h)
    | (.ok bytes, h) => (.encoded size bytes, h)
  | .encoded size bytes, h =>
    let (o, h) := store image (b.converter.target image) size bytes b.dryRun h
    (.done o, h)
  | .done o, h => (.done o, h)

/-- The turn of one of several images, by its number. -/
def turnIn (b : Batch) : Nat → List (Path × Progress) → Host → List (Path × Progress) × Host
  | _, [], h => ([], h)
  | 0, (image, p) :: tasks, h =>
    let (p, h) := b.step image p h
    ((image, p) :: tasks, h)
  | n + 1, task :: tasks, h =>
    let (tasks, h) := b.turnIn n tasks h
    (task :: tasks, h)

/-- The turn of an image in a batch. -/
def turn (b : Batch) (s : State) (n : Nat) : State :=
  let (tasks, h) := b.turnIn n s.tasks s.host
  ⟨tasks, h⟩

/-- The turns of a schedule, one after the other. -/
def play (b : Batch) (s : State) (schedule : List Nat) : State := schedule.foldl b.turn s

/-- Nobody had a turn yet. -/
def start (b : Batch) (h : Host) : State := ⟨b.images.map fun i => (i, .waiting), h⟩

/-- Every image has its outcome. -/
def State.IsDone (s : State) : Prop := ∀ task ∈ s.tasks, task.2.outcome?.isSome = true

instance (s : State) : Decidable s.IsDone :=
  inferInstanceAs (Decidable (∀ task ∈ s.tasks, task.2.outcome?.isSome = true))

/-- The outcomes so far, in the order of the images. -/
def State.outcomes (s : State) : List Outcome := s.tasks.filterMap fun task => task.2.outcome?

/-- The steps of an image that has the machine to itself. -/
def alone (b : Batch) (image : Path) (h : Host) : Nat → Progress × Host
  | 0 => (.waiting, h)
  | k + 1 =>
    let (p, h) := b.alone image h k
    b.step image p h

/-! ### Steps and conversions -/

section Steps

variable {b : Batch} {image : Path} {h : Host}

/-- Three steps are the conversion of an image. -/
lemma alone_three (b : Batch) (image : Path) (h : Host) :
    b.alone image h 3
      = (.done (convertAmong b.converter b.images b.quality b.dryRun image h).1,
        (convertAmong b.converter b.images b.quality b.dryRun image h).2) := by
  simp only [alone, step, convertAmong, convertOne]
  cases b.converter.collides b.images image with
  | true => rfl
  | false =>
      simp only [Bool.false_eq_true, if_false]
      cases hlook : h.look .stat image (·.size? image) with
      | mk measured h₁ =>
          cases measured with
          | error e => rfl
          | ok size =>
              simp only
              cases hrun : b.converter.run image b.quality h₁ with
              | mk encoded h₂ =>
                  cases encoded with
                  | error failure => rfl
                  | ok bytes => rfl

/-- An image that is done stays so. -/
lemma alone_of_done {k : Nat} {o : Outcome} (hk : (b.alone image h k).1 = .done o) (n : Nat) :
    b.alone image h (k + n) = b.alone image h k := by
  induction n with
  | zero => rfl
  | succ n ih =>
      rw [← Nat.add_assoc, alone, ih]
      cases hp : b.alone image h k with
      | mk p h' =>
          rw [hp] at hk
          simp only at hk
          rw [hk]
          rfl

/-- What an image alone comes to is its conversion. -/
lemma alone_done {k : Nat} {o : Outcome} (hk : (b.alone image h k).1 = .done o) :
    b.alone image h k
      = (.done (convertAmong b.converter b.images b.quality b.dryRun image h).1,
        (convertAmong b.converter b.images b.quality b.dryRun image h).2) := by
  rcases Nat.le_total k 3 with hle | hle
  · obtain ⟨n, hn⟩ := Nat.exists_eq_add_of_le hle
    rw [← alone_three, hn, alone_of_done hk]
  · obtain ⟨n, hn⟩ := Nat.exists_eq_add_of_le hle
    rw [hn, alone_of_done (congrArg Prod.fst (alone_three b image h)), alone_three]

end Steps

/-! ### A step in the batch and a step alone -/

/-- An image lies below the target of an image, in which case writing the target may change why it
is not there. -/
def LiesBelow (b : Batch) (image : Path) : Prop :=
  ∃ j ∈ b.images, (b.converter.target j).IsPlace ∧ ∃ names, names ≠ [] ∧
    Listing.place image = Listing.place (b.converter.target j) ++ names

/-- One progress, up to the reason why an image below a target could not be converted. -/
def Alike (b : Batch) (image : Path) (p p' : Progress) : Prop :=
  p = p' ∨ b.LiesBelow image ∧
    ∃ t t', p = .done (.failed image t) ∧ p' = .done (.failed image t')

/-- Two machines look alike to an image: they differ in files only, and neither in the image nor in
its target, nor on the way there unless a target may be in it. -/
structure Agree (b : Batch) (l : Location) (n : Text) (h h' : Host) : Prop where
  steady : h.faults.IsSteady
  faults : h'.faults = h.faults
  links : h.disk.HasNoLinks
  changed : ∃ places, FilesChanged places h.disk h'.disk
  image : h'.disk.node? (l ++ [n]) = h.disk.node? (l ++ [n])
  target : ∀ n', AreNames (l ++ [n']) → b.converter.target (pathOf (l ++ [n])) = pathOf (l ++ [n']) →
    h'.disk.node? (l ++ [n']) = h.disk.node? (l ++ [n'])
  way : ¬ b.LiesBelow (pathOf (l ++ [n])) →
    ∀ k ≤ (l ++ [n]).length, h'.disk.node? ((l ++ [n]).take k) = h.disk.node? ((l ++ [n]).take k)

/-- A step changes nothing in two trees, or puts one entry at the target in both, and then the image
is done. -/
inductive SameChange (b : Batch) (l : Location) (n : Text) (p : Progress) (d d' e e' : Disk) : Prop
    where
  | none (hd : e = d) (hd' : e' = d')
  | put {n' : Text} {node : Node} {o : Outcome}
      (hfree : b.converter.collides b.images (pathOf (l ++ [n])) = false)
      (hnames : AreNames (l ++ [n']))
      (htarget : b.converter.target (pathOf (l ++ [n])) = pathOf (l ++ [n'])) (hdone : p = .done o)
      (hd : e = d.put (l ++ [n']) node) (hd' : e' = d'.put (l ++ [n']) node)

/-- The conversion of an image has come to the file itself. -/
def HasOpened (b : Batch) (l : Location) (n : Text) (d : Disk) : Prop :=
  b.converter.collides b.images (pathOf (l ++ [n])) = false ∧ d.Opens l

section Agreement

variable {b : Batch} {l : Location} {n : Text} {h h' : Host} {p : Progress}

lemma Alike.refl (b : Batch) (image : Path) (p : Progress) : b.Alike image p p := Or.inl rfl

/-- Measuring an image that has its target for itself. -/
lemma step_waiting {image : Path} (hc : b.converter.collides b.images image = false) (h : Host) :
    b.step image .waiting h
      = match h.answer .stat image (·.size? image) with
        | .error e => (.done (.failed image e.message),
            h.tick.report (.failed .stat image e.message))
        | .ok size => (.measured size, h.tick) := by
  rw [step, if_neg (by simp [hc]), Host.look_eq]
  cases h.answer .stat image (·.size? image) <;> rfl

lemma step_waiting_fst {image : Path} (hc : b.converter.collides b.images image = false)
    (h : Host) :
    (b.step image .waiting h).1
      = match h.answer .stat image (·.size? image) with
        | .error e => .done (.failed image e.message)
        | .ok size => .measured size := by
  rw [step_waiting hc]
  split <;> rfl

/-- A step does not change what fails. -/
lemma faults_step (b : Batch) (image : Path) (p : Progress) (h : Host) :
    (b.step image p h).2.faults = h.faults := by
  cases p with
  | waiting =>
      cases hc : b.converter.collides b.images image with
      | true =>
          rw [step, if_pos hc]
      | false =>
          rw [step_waiting hc]
          split <;> rfl
  | measured size =>
      rw [step, Converter.run_eq]
      split <;> rename_i heq <;> simp only [Prod.mk.injEq] at heq <;> rw [← heq.2] <;> rfl
  | encoded size bytes =>
      have hends := storeEnds image (b.converter.target image) size bytes b.dryRun h
      rw [step]
      generalize store image (b.converter.target image) size bytes b.dryRun h = result at hends ⊢
      cases hends <;> rfl
  | done o => rfl

/-- What is measured or encoded is a file in a directory that can be reached. -/
lemma hasOpened_step (hn : AreNames (l ++ [n])) (hlinks : h.disk.HasNoLinks)
    (hbefore : p ≠ .waiting → b.HasOpened l n h.disk)
    (hopen : (b.step (pathOf (l ++ [n])) p h).1.outcome? = none) : b.HasOpened l n h.disk := by
  by_cases hp : p = .waiting
  · subst hp
    cases hc : b.converter.collides b.images (pathOf (l ++ [n])) with
    | true =>
        rw [step, if_pos hc] at hopen
        exact absurd hopen (by simp [Progress.outcome?])
    | false =>
        refine ⟨hc, ?_⟩
        rw [step_waiting hc] at hopen
        cases hstat : h.answer .stat (pathOf (l ++ [n])) (·.size? (pathOf (l ++ [n]))) with
        | error e =>
            rw [hstat] at hopen
            exact absurd hopen (by simp [Progress.outcome?])
        | ok size =>
            rw [Host.answer] at hstat
            cases hf : h.faults h.clock .stat (pathOf (l ++ [n])) with
            | some e => rw [hf] at hstat; exact absurd hstat (by simp)
            | none =>
                rw [hf] at hstat
                exact Disk.opens_of_size? hlinks hn hstat
  · exact hbefore hp

/-- Only storing changes the tree. -/
lemma disk_step {image : Path} (hp : ∀ size bytes, p ≠ .encoded size bytes) (h : Host) :
    (b.step image p h).2.disk = h.disk := by
  cases p with
  | waiting =>
      cases hc : b.converter.collides b.images image with
      | true => rw [step, if_pos hc]
      | false =>
          rw [step_waiting hc]
          split <;> rfl
  | measured size =>
      rw [step, Converter.run_eq]
      split <;> rename_i heq <;> simp only [Prod.mk.injEq] at heq <;> rw [← heq.2] <;> rfl
  | encoded size bytes => exact absurd rfl (hp size bytes)
  | done o => rfl

/-- An image that is not done has changed nothing. -/
lemma disk_step_of_not_done {image : Path} (hopen : (b.step image p h).1.outcome? = none) :
    (b.step image p h).2.disk = h.disk := by
  refine disk_step ?_ h
  rintro size bytes rfl
  exact absurd hopen (by simp [step, Progress.outcome?])

/-! #### The three steps -/

variable (ha : b.Agree l n h h') (hn : AreNames (l ++ [n]))

include ha hn

/-- The image is found alike on both machines. -/
lemma Agree.find?_eq (hopens : h.disk.Opens l) :
    h'.disk.find? true (pathOf (l ++ [n])) = h.disk.find? true (pathOf (l ++ [n])) := by
  obtain ⟨places, hchanged⟩ := ha.changed
  exact hchanged.find?_eq ha.links hn ha.image hopens true

/-- Measuring gives the same on both machines. If the image is not there, the reason may differ where
a target is on the way. -/
lemma alike_waiting :
    b.Alike (pathOf (l ++ [n])) (b.step (pathOf (l ++ [n])) .waiting h).1
      (b.step (pathOf (l ++ [n])) .waiting h').1 := by
  obtain ⟨places, hchanged⟩ := ha.changed
  have hlinks' := hchanged.hasNoLinks ha.links
  cases hc : b.converter.collides b.images (pathOf (l ++ [n])) with
  | true =>
      rw [step, if_pos hc, step, if_pos hc]
      exact Alike.refl _ _ _
  | false =>
      rw [step_waiting_fst hc, step_waiting_fst hc]
      have hsame : ∀ {q : Path}, h'.disk.size? q = h.disk.size? q →
          h'.answer .stat q (·.size? q) = h.answer .stat q (·.size? q) :=
        fun hsize => Host.answer_eq ha.steady ha.faults hsize
      by_cases hopens : h.disk.Opens l
      · rw [hsame (Disk.size?_eq_of_find? (ha.find?_eq hn hopens))]
        exact Alike.refl _ _ _
      by_cases hbelow : b.LiesBelow (pathOf (l ++ [n]))
      · -- both machines refuse, each for its reason
        obtain ⟨e, he⟩ := Disk.exists_size?_eq_error ha.links hn hopens
        obtain ⟨e', he'⟩ :=
          Disk.exists_size?_eq_error hlinks' hn fun hopens' => hopens (hchanged.opens_iff.mp hopens')
        rw [Host.answer, Host.answer, ha.faults, ha.steady h'.clock h.clock, he, he']
        cases h.faults h.clock .stat (pathOf (l ++ [n])) with
        | some f => exact Alike.refl _ _ _
        | none => exact Or.inr ⟨hbelow, _, _, rfl, rfl⟩
      · have hway : h'.disk.find? true (pathOf (l ++ [n])) = h.disk.find? true (pathOf (l ++ [n])) :=
          Disk.find?_congr ha.links hlinks' hn (ha.way hbelow)
        rw [hsame (Disk.size?_eq_of_find? hway)]
        exact Alike.refl _ _ _

/-- Encoding gives the same on both machines. -/
lemma eq_measured (hopens : h.disk.Opens l) (size : Nat) :
    (b.step (pathOf (l ++ [n])) (.measured size) h').1
      = (b.step (pathOf (l ++ [n])) (.measured size) h).1 := by
  rw [step, step, Converter.run_eq, Converter.run_eq, ha.faults, ha.steady h'.clock h.clock,
    Disk.read?_eq_of_find? (ha.find?_eq hn hopens)]
  cases h.faults h.clock .encode (pathOf (l ++ [n])) with
  | some e => rfl
  | none => cases b.converter.encode _ _ _ <;> rfl

/-- Storing gives the same on both machines, and does the same to both trees. -/
lemma agree_encoded (he : IsExtension b.converter.extension) (hopened : b.HasOpened l n h.disk)
    (size : Nat) (bytes : Bytes) :
    (b.step (pathOf (l ++ [n])) (.encoded size bytes) h').1
        = (b.step (pathOf (l ++ [n])) (.encoded size bytes) h).1 ∧
      b.SameChange l n (b.step (pathOf (l ++ [n])) (.encoded size bytes) h').1 h.disk h'.disk
        (b.step (pathOf (l ++ [n])) (.encoded size bytes) h).2.disk
        (b.step (pathOf (l ++ [n])) (.encoded size bytes) h').2.disk := by
  obtain ⟨places, hchanged⟩ := ha.changed
  obtain ⟨hfree, hopens⟩ := hopened
  rw [step, step, store_eq, store_eq]
  simp only
  by_cases hsize : size ≤ bytes.size
  · rw [if_pos hsize, if_pos hsize]
    exact ⟨rfl, .none rfl rfl⟩
  rw [if_neg hsize, if_neg hsize]
  by_cases hdry : b.dryRun = true
  · rw [if_pos hdry, if_pos hdry]
    exact ⟨rfl, .none rfl rfl⟩
  rw [if_neg hdry, if_neg hdry, Host.answer, Host.answer, ha.faults, ha.steady h'.clock h.clock]
  cases h.faults h.clock .write (b.converter.target (pathOf (l ++ [n]))) with
  | some e => exact ⟨rfl, .none rfl rfl⟩
  | none =>
      rcases Converter.target_pathOf he hn with hdots | ⟨n', hnames, htarget, -⟩
      · rw [hdots, Disk.write?_dots_of_opens hn.left hopens,
          Disk.write?_dots_of_opens hn.left (hchanged.opens_iff.mpr hopens)]
        exact ⟨rfl, .none rfl rfl⟩
      · rcases hchanged.write?_eq ha.links hnames (ha.target n' hnames htarget) hopens bytes with
          ⟨e, hfail, hfail'⟩ | ⟨perms, hdone, hdone'⟩
        · rw [htarget, hfail, hfail']
          exact ⟨rfl, .none rfl rfl⟩
        · rw [htarget, hdone, hdone']
          exact ⟨rfl, .put hfree hnames htarget rfl rfl rfl⟩

/-- **A step in the batch is the step alone**, up to the reason why an image below a target is not
there, and it does the same to both trees. -/
lemma step_agrees (he : IsExtension b.converter.extension) (hopen : p.outcome? = none)
    (hbefore : p ≠ .waiting → b.HasOpened l n h.disk) :
    b.Alike (pathOf (l ++ [n])) (b.step (pathOf (l ++ [n])) p h).1
        (b.step (pathOf (l ++ [n])) p h').1 ∧
      b.SameChange l n (b.step (pathOf (l ++ [n])) p h').1 h.disk h'.disk
        (b.step (pathOf (l ++ [n])) p h).2.disk (b.step (pathOf (l ++ [n])) p h').2.disk := by
  cases p with
  | waiting => exact ⟨alike_waiting ha hn, .none (disk_step (by simp) h) (disk_step (by simp) h')⟩
  | measured size =>
      exact ⟨Or.inl (eq_measured ha hn (hbefore (by simp)).2 size).symm,
        .none (disk_step (by simp) h) (disk_step (by simp) h')⟩
  | encoded size bytes =>
      obtain ⟨hsame, hchange⟩ := agree_encoded ha hn he (hbefore (by simp)) size bytes
      exact ⟨Or.inl hsame.symm, hchange⟩
  | done o => exact absurd hopen (by simp [Progress.outcome?])

end Agreement

end Batch

end ImageMigration
