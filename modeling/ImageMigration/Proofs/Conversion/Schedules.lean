/-
What all schedules of a batch keep.

After any turns, each image has come as far as it may come alone. The entry at a target is as its
image alone leaves it, once that is done, and all else is as at the start: no two images store at one
place, and none stores at another image.

* `Batch.StoresAt.unique`, `Batch.StoresAt.eq_of_place`: targets and images are apart;
* `Batch.Inv`: what all schedules keep; `Batch.Inv.agree`: to an image that is not done, the machine
  looks as if the image had it to itself;
* `Batch.Inv.turn`, `Batch.inv_play`: **one turn, and all turns of a schedule**;
* `Batch.play_sequence`: converting one image after the other is one of the schedules.
-/
import ImageMigration.Proofs.Conversion.Interleaving

namespace ImageMigration.Batch

open Disk (pathOf FilesChanged)

/-- The place of the target of an image that has it for itself. -/
def StoresAt (b : Batch) (image : Path) (l : Location) : Prop :=
  b.converter.collides b.images image = false ∧ (b.converter.target image).IsPlace ∧
    Listing.place (b.converter.target image) = l

/-- The conversion of an image that has the machine to itself. -/
def conversion (b : Batch) (image : Path) (h : Host) : Outcome × Host :=
  convertAmong b.converter b.images b.quality b.dryRun image h

/-- What holds after any turns: each image has come as far as it may come alone, and the entry at a
target is as its image alone leaves it, once that is done. All else is as at the start. -/
structure Inv (b : Batch) (h : Host) (s : State) : Prop where
  images : s.tasks.map Prod.fst = b.images
  faults : s.host.faults = h.faults
  alike : ∀ image p, (image, p) ∈ s.tasks → ∃ k, b.Alike image (b.alone image h k).1 p
  settled : ∀ image o l, (image, .done o) ∈ s.tasks → b.StoresAt image l →
    s.host.disk.node? l = (b.conversion image h).2.disk.node? l
  untouched : ∀ l, (∀ image o, (image, .done o) ∈ s.tasks → ¬ b.StoresAt image l) →
    s.host.disk.node? l = h.disk.node? l

section Schedules

variable {b : Batch} {h : Host} {s : State} {image j : Path} {p : Progress} {l : Location}
  {n : Text}

/-- A turn is a step of one image, or nothing. -/
lemma turnIn_cases (b : Batch) (k : Nat) (tasks : List (Path × Progress)) (h : Host) :
    b.turnIn k tasks h = (tasks, h) ∨
      ∃ front image p back, tasks = front ++ (image, p) :: back ∧
        b.turnIn k tasks h
          = (front ++ (image, (b.step image p h).1) :: back, (b.step image p h).2) := by
  induction tasks generalizing k with
  | nil => cases k <;> exact Or.inl rfl
  | cons task tasks ih =>
      cases k with
      | zero => exact Or.inr ⟨[], task.1, task.2, tasks, rfl, rfl⟩
      | succ k =>
          rw [turnIn]
          rcases ih k with hsame | ⟨front, image, p, back, rfl, hturn⟩
          · rw [hsame]
            exact Or.inl rfl
          · rw [hturn]
            exact Or.inr ⟨task :: front, image, p, back, rfl, rfl⟩

/-- An image that is not done alone has changed nothing, and what was measured is there. -/
lemma alone_of_not_done {k : Nat} (hlinks : h.disk.HasNoLinks) (hn : AreNames (l ++ [n]))
    (hk : (b.alone (pathOf (l ++ [n])) h k).1.outcome? = none) :
    (b.alone (pathOf (l ++ [n])) h k).2.disk = h.disk ∧
      (b.alone (pathOf (l ++ [n])) h k).2.faults = h.faults ∧
      ((b.alone (pathOf (l ++ [n])) h k).1 ≠ .waiting → b.HasOpened l n h.disk) := by
  induction k with
  | zero => exact ⟨rfl, rfl, fun hne => absurd rfl hne⟩
  | succ k ih =>
      rw [alone] at hk ⊢
      generalize b.alone (pathOf (l ++ [n])) h k = before at ih hk ⊢
      obtain ⟨p, h'⟩ := before
      simp only at ih hk ⊢
      have hp : p.outcome? = none := by
        cases p with
        | done o => exact absurd hk (by simp [step, Progress.outcome?])
        | _ => rfl
      obtain ⟨hdisk, hfaults, hopened⟩ := ih hp
      refine ⟨(disk_step_of_not_done hk).trans hdisk, (faults_step _ _ _ _).trans hfaults, ?_⟩
      intro _
      rw [← hdisk] at hlinks hopened ⊢
      exact hasOpened_step hn hlinks hopened hk

/-- One image alone changes no more than the file at its target. -/
lemma filesChanged_conversion (hlinks : h.disk.HasNoLinks) (hs : b.StoresAt image l) :
    FilesChanged (· = l) h.disk (b.conversion image h).2.disk := by
  obtain ⟨-, ⟨hnames, hpath⟩, rfl⟩ := hs
  rcases (convertAmong_cases b.converter b.images b.quality b.dryRun image h).2 with
    ⟨hsame, -⟩ | ⟨-, -, _, _, -, -, -, hwrite⟩
  · rw [conversion, hsame]
    exact FilesChanged.refl _ _
  · rw [← hpath] at hwrite
    exact Disk.filesChanged_write? hlinks hnames hwrite

lemma Alike.eq_of_not_done {q : Progress} (ha : b.Alike image q p) (hp : p.outcome? = none) :
    q = p := by
  rcases ha with heq | ⟨-, t, t', -, rfl⟩
  · exact heq
  · exact absurd hp (by simp [Progress.outcome?])

lemma Alike.exists_done {q : Progress} {o : Outcome} (ha : b.Alike image q (.done o)) :
    ∃ o', q = .done o' := by
  rcases ha with rfl | ⟨-, t, t', hq, -⟩
  · exact ⟨o, rfl⟩
  · exact ⟨_, hq⟩

/-- The tasks after a turn are those before, but for the one whose turn it was. -/
lemma mem_of_mem_moved {front back : List (Path × Progress)} {task task' x : Path × Progress}
    (hx : x ∈ front ++ task' :: back) : x = task' ∨ x ∈ front ++ task :: back := by
  rcases List.mem_append.mp hx with hx | hx
  · exact Or.inr (List.mem_append_left _ hx)
  · exact (List.mem_cons.mp hx).imp id fun hx =>
      List.mem_append_right _ (List.mem_cons_of_mem _ hx)

section Stored

variable {d d' e e' : Disk} {l' : Location}

/-- A change of an image leaves the places where the image does not store. -/
lemma SameChange.node?_eq (hchange : b.SameChange l n p d d' e e')
    (hno : p.outcome?.isSome = true → ¬ b.StoresAt (pathOf (l ++ [n])) l') :
    e'.node? l' = d'.node? l' := by
  cases hchange with
  | none _ hd' => rw [hd']
  | put hfree hnames htarget hdone _ hd' =>
      rw [hd', Disk.node?_put (by simp), if_neg]
      rintro rfl
      refine hno (by rw [hdone]; rfl) ⟨hfree, ?_, ?_⟩ <;> rw [htarget]
      · exact isPlace_pathOf hnames
      · exact place_pathOf hnames

/-- Where an image stores, both trees are alike afterwards, if they were before. -/
lemma SameChange.node?_eq_of_storesAt (hchange : b.SameChange l n p d d' e e')
    (hs : b.StoresAt (pathOf (l ++ [n])) l') (hsame : d'.node? l' = d.node? l') :
    e'.node? l' = e.node? l' := by
  cases hchange with
  | none hd hd' => rw [hd, hd', hsame]
  | put hfree hnames htarget hdone hd hd' =>
      obtain ⟨-, -, rfl⟩ := hs
      rw [htarget, place_pathOf hnames, hd, hd', Disk.node?_put (by simp),
        Disk.node?_put (by simp), if_pos rfl, if_pos rfl]

end Stored

lemma inv_start (b : Batch) (h : Host) : b.Inv h (b.start h) where
  images := by simp [start, Function.comp_def]
  faults := rfl
  alike image p hmem := by
    obtain ⟨i, -, hi⟩ := List.mem_map.mp hmem
    rw [Prod.mk.injEq] at hi
    exact ⟨0, Or.inl hi.2⟩
  settled image o l hmem := by
    obtain ⟨i, -, hi⟩ := List.mem_map.mp hmem
    exact absurd (congrArg Prod.snd hi) (by simp)
  untouched l _ := rfl

variable (hsteady : h.faults.IsSteady) (hlinks : h.disk.HasNoLinks)
  (he : IsExtension b.converter.extension) (hnodup : b.images.Nodup)
  (hentries : ∀ i ∈ b.images, i.IsEntry)

/-- No two images store at one place. -/
lemma StoresAt.unique (hi : image ∈ b.images) (hj : j ∈ b.images) (hs : b.StoresAt image l)
    (hs' : b.StoresAt j l) : image = j := by
  by_contra hne
  obtain ⟨hfree, hplace, hl⟩ := hs
  obtain ⟨-, hplace', hl'⟩ := hs'
  have htarget := hplace.eq_of_place_eq hplace' (hl.trans hl'.symm)
  rw [collides_of_target_eq hi hj hne htarget] at hfree
  exact absurd hfree (by simp)

include he hentries in
/-- No image stores at another image. -/
lemma StoresAt.eq_of_place (hi : image ∈ b.images) (hj : j ∈ b.images)
    (hs : b.StoresAt j (Listing.place image)) : j = image := by
  by_contra hne
  obtain ⟨hfree, hplace, hl⟩ := hs
  have htarget := hplace.eq_of_place_eq (hentries image hi).isPlace hl
  have hcollide := Converter.collides_of_target_mem he hj (htarget ▸ hi) (htarget ▸ Ne.symm hne)
    (hentries j hj) (htarget ▸ hentries image hi)
  rw [hcollide] at hfree
  exact absurd hfree (by simp)

namespace Inv

variable (hi : b.Inv h s)

include hi

lemma mem_images (hmem : (image, p) ∈ s.tasks) : image ∈ b.images := by
  rw [← hi.images]
  exact List.mem_map_of_mem hmem

/-- An image has one progress. -/
lemma progress_unique {q : Progress} (hnodup : b.images.Nodup) (hmem : (image, p) ∈ s.tasks)
    (hmem' : (image, q) ∈ s.tasks) : q = p := by
  have hkeys : (s.tasks.map Prod.fst).Nodup := by rwa [hi.images]
  exact congrArg Prod.snd (List.inj_on_of_nodup_map hkeys hmem' hmem rfl)

/-- An image under way is not done. -/
lemma not_done (hnodup : b.images.Nodup) (hmem : (image, p) ∈ s.tasks) (hp : p.outcome? = none)
    (o : Outcome) : (image, .done o) ∉ s.tasks := by
  intro hdone
  rw [← hi.progress_unique hnodup hmem hdone] at hp
  exact absurd hp (by simp [Progress.outcome?])

include hlinks

/-- Any turns change no more than files at targets. -/
lemma filesChanged :
    FilesChanged (fun l => ∃ i ∈ b.images, b.StoresAt i l) h.disk s.host.disk := by
  intro l
  by_cases hstored : ∃ i o, (i, .done o) ∈ s.tasks ∧ b.StoresAt i l
  · obtain ⟨i, o, hmem, hs⟩ := hstored
    rw [hi.settled i o l hmem hs]
    rcases filesChanged_conversion hlinks hs l with hsame | ⟨-, hno, hfile⟩
    · exact Or.inl hsame
    · exact Or.inr ⟨⟨i, hi.mem_images hmem, hs⟩, hno, hfile⟩
  · refine Or.inl (hi.untouched l fun i o hmem hs => hstored ⟨i, o, hmem, hs⟩)

omit hlinks in
/-- The progress of one image changes, and what it stores, if anything, is what it would store alone. -/
lemma extend {front back : List (Path × Progress)} {p' : Progress} {host : Host} {k : Nat}
    (hnodup : b.images.Nodup) (htasks : s.tasks = front ++ (pathOf (l ++ [n]), p) :: back)
    (hp : p.outcome? = none) (hfaults : host.faults = h.faults)
    (halike : b.Alike (pathOf (l ++ [n])) (b.alone (pathOf (l ++ [n])) h k).1 p')
    (hchange : b.SameChange l n p' h.disk s.host.disk
      (b.alone (pathOf (l ++ [n])) h k).2.disk host.disk) :
    b.Inv h ⟨front ++ (pathOf (l ++ [n]), p') :: back, host⟩ := by
  have hmem : (pathOf (l ++ [n]), p) ∈ s.tasks := by rw [htasks]; simp
  have hin := hi.mem_images hmem
  have hopen := hi.not_done hnodup hmem hp
  have hafter : ∀ {i q}, (i, q) ∈ front ++ (pathOf (l ++ [n]), p') :: back →
      (i = pathOf (l ++ [n]) ∧ q = p') ∨ (i, q) ∈ s.tasks := fun hq => by
    rw [htasks]
    exact (mem_of_mem_moved hq).imp Prod.mk.inj id
  refine ⟨?_, hfaults, fun i q hq => ?_, fun i o l' hq hs => ?_, fun l' hno => ?_⟩
  · rw [← hi.images, htasks]
    simp
  · rcases hafter hq with ⟨rfl, rfl⟩ | hold
    · exact ⟨k, halike⟩
    · exact hi.alike i q hold
  · rcases hafter hq with ⟨rfl, rfl⟩ | hold
    · obtain ⟨o', ho'⟩ := halike.exists_done
      rw [conversion, ← congrArg Prod.snd (alone_done ho')]
      -- nobody stored at this target before
      refine hchange.node?_eq_of_storesAt hs (hi.untouched l' fun j o'' hj hs' => hopen o'' ?_)
      rwa [StoresAt.unique hin (hi.mem_images hj) hs hs']
    · rw [← hi.settled i o l' hold hs]
      refine hchange.node?_eq fun _ hs' => hopen o ?_
      rwa [StoresAt.unique hin (hi.mem_images hold) hs' hs]
  · have hold : s.host.disk.node? l' = h.disk.node? l' := by
      refine hi.untouched l' fun i o hdone hs => hno i o ?_ hs
      rw [htasks] at hdone
      refine (mem_of_mem_moved hdone).resolve_left fun heq => ?_
      rw [← (Prod.mk.inj heq).2] at hp
      exact absurd hp (by simp [Progress.outcome?])
    rw [← hold]
    refine hchange.node?_eq fun hdone => ?_
    obtain ⟨o, ho⟩ := Option.isSome_iff_exists.mp hdone
    obtain rfl := Progress.eq_done_of_outcome? ho
    exact hno _ o (by simp)

include hsteady he hnodup hentries

/-- To an image that is not done, the machine looks as it would if the image had it to itself. -/
lemma agree {k : Nat} {front back : List (Path × Progress)} (hn : AreNames (l ++ [n]))
    (htasks : s.tasks = front ++ (pathOf (l ++ [n]), p) :: back)
    (hk : (b.alone (pathOf (l ++ [n])) h k).1 = p) (hp : p.outcome? = none) :
    b.Agree l n (b.alone (pathOf (l ++ [n])) h k).2 s.host := by
  obtain ⟨hdisk, hfaults, -⟩ := alone_of_not_done hlinks hn (hk ▸ hp)
  have hin : (pathOf (l ++ [n]), p) ∈ s.tasks := by rw [htasks]; simp
  have hmem := hi.mem_images hin
  have hother : ∀ i o, (i, .done o) ∈ s.tasks → i ≠ pathOf (l ++ [n]) := by
    rintro i o hdone rfl
    exact hi.not_done hnodup hin hp o hdone
  have hsame : ∀ l', (∀ i ∈ b.images, i ≠ pathOf (l ++ [n]) → ¬ b.StoresAt i l') →
      s.host.disk.node? l' = h.disk.node? l' := fun l' hfree =>
    hi.untouched l' fun i o hdone => hfree i (hi.mem_images hdone) (hother i o hdone)
  have himage : s.host.disk.node? (l ++ [n]) = h.disk.node? (l ++ [n]) := by
    refine hsame _ fun i hi' hne hs => hne ?_
    exact StoresAt.eq_of_place he hentries hmem hi' (by rwa [place_pathOf hn])
  refine ⟨hfaults ▸ hsteady, hi.faults.trans hfaults.symm, hdisk ▸ hlinks,
    ⟨_, hdisk ▸ hi.filesChanged hlinks⟩, ?_, ?_, ?_⟩ <;> rw [hdisk]
  · exact himage
  · intro n' hnames htarget
    refine hsame _ fun i hi' hne hs => ?_
    obtain ⟨hfree, hplace, hl⟩ := hs
    have heq : b.converter.target i = b.converter.target (pathOf (l ++ [n])) :=
      hplace.eq_of_place_eq (htarget ▸ isPlace_pathOf hnames) (by
        rw [hl, htarget, place_pathOf hnames])
    rw [collides_of_target_eq hi' hmem hne heq] at hfree
    exact absurd hfree (by simp)
  · intro hbelow k hk
    rcases Nat.lt_or_eq_of_le hk with hlt | rfl
    · refine hsame _ fun i hi' hne hs => hbelow ⟨i, hi', hs.2.1, (l ++ [n]).drop k, ?_, ?_⟩
      · simpa using hlt
      · rw [hs.2.2, place_pathOf hn, List.take_append_drop]
    · rwa [List.take_length]

/-- **A turn keeps what all schedules keep.** -/
lemma turn (k : Nat) : b.Inv h (b.turn s k) := by
  rw [Batch.turn]
  rcases turnIn_cases b k s.tasks s.host with hsame | ⟨front, image, p, back, htasks, hturn⟩
  · rw [hsame]
    exact hi
  rw [hturn]
  cases hp : p.outcome? with
  | some o =>
      -- who is done has no more steps
      obtain rfl := Progress.eq_done_of_outcome? hp
      rw [step, ← htasks]
      exact hi
  | none =>
  have hmem : (image, p) ∈ s.tasks := by rw [htasks]; simp
  have hin := hi.mem_images hmem
  obtain ⟨l, n, hn, rfl⟩ := hentries image hin
  obtain ⟨k, halike⟩ := hi.alike _ _ hmem
  have hk := halike.eq_of_not_done hp
  have hagree := hi.agree hsteady hlinks he hnodup hentries hn htasks hk hp
  obtain ⟨hdisk, -, hopened⟩ := alone_of_not_done hlinks hn (hk ▸ hp)
  rw [hk, ← hdisk] at hopened
  obtain ⟨hstep, hchange⟩ := step_agrees hagree hn he hp hopened
  have hnext : b.alone (pathOf (l ++ [n])) h (k + 1)
      = b.step (pathOf (l ++ [n])) p (b.alone (pathOf (l ++ [n])) h k).2 := by
    rw [alone, ← hk]
  rw [← hnext] at hstep hchange
  rw [hdisk] at hchange
  have hfaults := (faults_step b (pathOf (l ++ [n])) p s.host).trans hi.faults
  generalize b.step (pathOf (l ++ [n])) p s.host = after at hstep hchange hfaults ⊢
  obtain ⟨p', host⟩ := after
  simp only at hstep hchange hfaults ⊢
  exact hi.extend hnodup htasks hp hfaults hstep hchange

end Inv

include hsteady hlinks he hnodup hentries

/-- **What all schedules keep.** -/
lemma inv_play (schedule : List Nat) : b.Inv h (b.play (b.start h) schedule) := by
  have hrun : ∀ s, b.Inv h s → b.Inv h (b.play s schedule) := by
    induction schedule with
    | nil => exact fun s hs => hs
    | cons k schedule ih =>
        exact fun s hs => ih _ (hs.turn hsteady hlinks he hnodup hentries k)
  exact hrun _ (inv_start b h)

end Schedules

/-! ### One image after the other -/

section Sequence

variable {b : Batch} {h : Host}

/-- The turn of the image behind the first ones. -/
lemma turnIn_length (b : Batch) (front back : List (Path × Progress)) (image : Path) (p : Progress)
    (h : Host) :
    b.turnIn front.length (front ++ (image, p) :: back) h
      = (front ++ (image, (b.step image p h).1) :: back, (b.step image p h).2) := by
  induction front with
  | nil => rfl
  | cons task front ih =>
      rw [List.length_cons, List.cons_append, turnIn, ih]
      rfl

/-- Three turns in a row convert an image. -/
lemma play_three (b : Batch) (front back : List (Path × Progress)) (image : Path) (h : Host) :
    b.play ⟨front ++ (image, .waiting) :: back, h⟩ [front.length, front.length, front.length]
      = ⟨front ++ (image, .done (b.conversion image h).1) :: back, (b.conversion image h).2⟩ := by
  have hturn : ∀ p h, b.turn ⟨front ++ (image, p) :: back, h⟩ front.length
      = ⟨front ++ (image, (b.step image p h).1) :: back, (b.step image p h).2⟩ := by
    intro p h
    rw [turn, turnIn_length]
  have hthree := alone_three b image h
  simp only [alone] at hthree
  simp only [play, List.foldl_cons, List.foldl_nil, hturn, hthree]
  rfl

/-- The schedule that gives each image three turns in a row. -/
def sequence (first count : Nat) : List Nat :=
  (List.range' first count).flatMap fun k => [k, k, k]

lemma play_append (b : Batch) (s : State) (schedule schedule' : List Nat) :
    b.play s (schedule ++ schedule') = b.play (b.play s schedule) schedule' :=
  List.foldl_append ..

lemma play_sequence_from (b : Batch) (front : List (Path × Progress)) (images : List Path)
    (h : Host) :
    b.play ⟨front ++ images.map (fun i => (i, .waiting)), h⟩ (sequence front.length images.length)
      = ⟨front ++ (convertEach b.converter b.images b.quality b.dryRun images h).1.map
            fun o => (o.image, .done o),
          (convertEach b.converter b.images b.quality b.dryRun images h).2⟩ := by
  induction images generalizing front h with
  | nil => rfl
  | cons image images ih =>
      have hname : (b.conversion image h).1.image = image :=
        (convertAmong_cases b.converter b.images b.quality b.dryRun image h).1
      have hrest := ih (front ++ [(image, .done (b.conversion image h).1)]) (b.conversion image h).2
      rw [List.length_append, List.append_assoc, List.append_assoc] at hrest
      rw [sequence, List.length_cons, List.range'_succ, List.flatMap_cons, play_append,
        List.map_cons, play_three, convertEach]
      simp only [List.map_cons]
      rw [conversion] at hname hrest ⊢
      rw [hname]
      exact hrest

/-- **Converting one image after the other is one of the schedules.** -/
lemma play_sequence (b : Batch) (h : Host) :
    b.play (b.start h) (sequence 0 b.images.length)
      = ⟨(convertAll b.converter b.images b.quality b.dryRun h).1.map fun o => (o.image, .done o),
          (convertAll b.converter b.images b.quality b.dryRun h).2⟩ :=
  play_sequence_from b [] b.images h

end Sequence

end ImageMigration.Batch
