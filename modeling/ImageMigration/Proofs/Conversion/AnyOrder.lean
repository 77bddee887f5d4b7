/-
The order of conversions does not matter.

A complete schedule leaves every image with the outcome that its conversion alone has on the tree of
the start, and the tree with the new images in the places of their targets. Only one thing can tell
two schedules apart: why an image is not there that lies below the target of another one.

* `Batch.Converts`: what it takes for an image to be converted, told at the start of the batch;
* `Batch.skipped_conversion_iff`: an image is skipped if anything of that is missing;
* `Batch.IsSettled`: **what a complete schedule leaves behind**;
* `Batch.interleavings_agree`: all complete schedules leave that, and converting one image after the
  other is one of them;
* `Batch.interleavings_differ`: two schedules may tell different reasons.
-/
import ImageMigration.Proofs.Conversion.Schedules

namespace ImageMigration.Batch

open Disk (pathOf FilesChanged)

/-- What it takes for an image to be converted, told at the start of the batch: no other image has
its target, it can be measured and encoded, the new image is smaller, and can be written unless the
run is dry. -/
structure Converts (b : Batch) (h : Host) (image : Path) (size : Nat) (bytes : Bytes) : Prop where
  target : ∀ j ∈ b.images, j ≠ image →
    (b.converter.target j).same (b.converter.target image) = false
  stat : h.answer .stat image (·.size? image) = .ok size
  encode : (b.converter.run image b.quality h).1 = .ok bytes
  smaller : bytes.size < size
  written : b.dryRun = false → ∃ disk,
    h.answer .write (b.converter.target image) (·.write? (b.converter.target image) bytes) = .ok disk

/-- What a complete schedule leaves behind. Every image has one outcome, in the order of the images,
and was converted if that is possible on the tree of the start. The outcome is that of the
conversion alone, up to the reason why an image is not there that lies below a target. In the place
of each target are the bytes that its image was encoded to, and all else is as at the start. -/
structure IsSettled (b : Batch) (h : Host) (s : State) : Prop where
  images : s.outcomes.map Outcome.image = b.images
  converted : ∀ o ∈ s.outcomes,
    o.skipped = false ↔ ∃ size bytes, b.Converts h o.image size bytes
  alone : ∀ o ∈ s.outcomes, o = (b.conversion o.image h).1 ∨ b.LiesBelow o.image ∧
    ∃ t t', o = .failed o.image t ∧ (b.conversion o.image h).1 = .failed o.image t'
  stored : b.dryRun = false → ∀ o ∈ s.outcomes, o.skipped = false → ∃ bytes perms,
    (b.converter.run o.image b.quality h).1 = .ok bytes ∧
      s.host.disk.node? (Listing.place (b.converter.target o.image)) = some ⟨.file bytes, perms⟩
  elsewhere : ∀ l, (∀ o ∈ s.outcomes, o.skipped = false → b.dryRun = false →
    Listing.place (b.converter.target o.image) ≠ l) → s.host.disk.node? l = h.disk.node? l

section Conversions

variable {b : Batch} {h : Host} {image : Path} (hsteady : h.faults.IsSteady)

include hsteady

/-- **An image is converted if it can be,** and skipped if not. -/
lemma skipped_conversion_iff (hnodup : b.images.Nodup) (hi : image ∈ b.images) :
    (b.conversion image h).1.skipped = false ↔ ∃ size bytes, b.Converts h image size bytes := by
  have hrun : (b.converter.run image b.quality h.tick).1 = (b.converter.run image b.quality h).1 :=
    Converter.run_congr hsteady rfl rfl
  have hends := conversionEnds b.converter b.images b.quality b.dryRun image h
  rw [conversion]
  generalize convertAmong b.converter b.images b.quality b.dryRun image h = result at hends ⊢
  cases hends with
  | refused hcollides =>
      refine iff_of_false (by simp [Outcome.failed]) ?_
      rintro ⟨size, bytes, hconverts⟩
      rw [(Converter.collides_eq_false_iff hnodup hi).mpr hconverts.target] at hcollides
      exact absurd hcollides (by simp)
  | unmeasured e hfree hstat =>
      refine iff_of_false (by simp [giveUp, Outcome.failed]) ?_
      rintro ⟨size, bytes, hconverts⟩
      exact absurd (hstat.symm.trans hconverts.stat) (by simp)
  | unencoded size failure hfree hstat hencode =>
      refine iff_of_false (by simp [giveUp, Outcome.failed]) ?_
      rintro ⟨size, bytes, hconverts⟩
      exact absurd ((hencode.symm.trans hrun).trans hconverts.encode) (by simp)
  | encoded size bytes hfree hstat hencode =>
      have htick : h.tick.tick.answer .write (b.converter.target image)
          (·.write? (b.converter.target image) bytes)
            = h.answer .write (b.converter.target image)
              (·.write? (b.converter.target image) bytes) :=
        (Host.answer_tick (h := h.tick) hsteady _ _ _).trans (Host.answer_tick hsteady _ _ _)
      rw [skipped_store_iff, htick]
      constructor
      · rintro ⟨hlt, hwritten⟩
        exact ⟨size, bytes, (Converter.collides_eq_false_iff hnodup hi).mp hfree, hstat,
          hrun ▸ hencode, hlt, hwritten⟩
      · rintro ⟨size', bytes', hconverts⟩
        have hsize := Except.ok.inj (hstat.symm.trans hconverts.stat)
        have hbytes := Except.ok.inj ((hencode.symm.trans hrun).trans hconverts.encode)
        subst hsize hbytes
        exact ⟨hconverts.smaller, hconverts.written⟩

/-- The tree after the conversion of an image that was not skipped. -/
lemma node?_conversion (hlinks : h.disk.HasNoLinks) (he : IsExtension b.converter.extension)
    (hnodup : b.images.Nodup) (hi : image ∈ b.images) (hentry : image.IsEntry)
    (hdry : b.dryRun = false) (hskip : (b.conversion image h).1.skipped = false) :
    b.StoresAt image (Listing.place (b.converter.target image)) ∧ ∃ bytes perms,
      (b.converter.run image b.quality h).1 = .ok bytes ∧
        (b.conversion image h).2.disk.node? (Listing.place (b.converter.target image))
          = some ⟨.file bytes, perms⟩ := by
  obtain ⟨size, bytes, hconverts⟩ := (skipped_conversion_iff hsteady hnodup hi).mp hskip
  have hencode := (run_cases b.converter image b.quality h).2 bytes hconverts.encode
  rw [conversion] at hskip ⊢
  rcases (convertAmong_cases b.converter b.images b.quality b.dryRun image h).2 with
    ⟨-, hno⟩ | ⟨hfree, -, old, new, -, hnew, -, hwrite⟩
  · rw [hskip, hdry] at hno
    exact absurd hno (by simp)
  obtain rfl := Except.ok.inj (hencode.symm.trans hnew)
  obtain ⟨l, n, hn, rfl⟩ := hentry
  rcases Converter.target_pathOf he hn with hdots | ⟨n', hnames, htarget, -⟩
  · rw [hdots] at hwrite
    exact absurd hwrite (Disk.not_write?_pathOf_dots hlinks hn.left bytes)
  · rw [htarget] at hwrite
    obtain ⟨hne, -, perms, -, hput⟩ := Disk.write?_pathOf hlinks hnames hwrite
    refine ⟨⟨hfree, htarget ▸ isPlace_pathOf hnames, rfl⟩, bytes, perms, hconverts.encode, ?_⟩
    rw [htarget, place_pathOf hnames, hput, Disk.node?_put hne, if_pos rfl]

end Conversions

/-! ### Complete schedules -/

section Complete

variable {b : Batch} {h : Host} {s : State} {image : Path} {o : Outcome} {l : Location}

lemma mem_outcomes_iff : o ∈ s.outcomes ↔ ∃ i, (i, .done o) ∈ s.tasks := by
  rw [State.outcomes, List.mem_filterMap]
  constructor
  · rintro ⟨⟨i, p⟩, hmem, ho⟩
    obtain rfl := Progress.eq_done_of_outcome? ho
    exact ⟨i, hmem⟩
  · rintro ⟨i, hmem⟩
    exact ⟨_, hmem, rfl⟩

namespace Inv

variable (hi : b.Inv h s)

include hi

/-- The outcome of an image is that of its conversion alone, up to the reason why an image is not
there. -/
lemma outcome_cases (hmem : (image, .done o) ∈ s.tasks) :
    o.image = image ∧ (o = (b.conversion image h).1 ∨ b.LiesBelow image ∧
      ∃ t t', o = .failed image t ∧ (b.conversion image h).1 = .failed image t') := by
  have hname : (b.conversion image h).1.image = image :=
    (convertAmong_cases b.converter b.images b.quality b.dryRun image h).1
  obtain ⟨k, halike⟩ := hi.alike _ _ hmem
  obtain ⟨o', ho'⟩ := halike.exists_done
  have hconversion : o' = (b.conversion image h).1 := by
    rw [alone_done ho', Progress.done.injEq] at ho'
    exact ho'.symm
  rw [ho', Alike] at halike
  simp only [Progress.done.injEq] at halike
  rw [hconversion] at halike
  rcases halike with heq | ⟨hbelow, t, t', hfailed, hfailed'⟩
  · rw [← heq]
    exact ⟨hname, Or.inl rfl⟩
  · rw [hfailed']
    exact ⟨rfl, Or.inr ⟨hbelow, t', t, rfl, hfailed⟩⟩

lemma skipped_eq (hmem : (image, .done o) ∈ s.tasks) :
    o.skipped = (b.conversion image h).1.skipped := by
  obtain ⟨-, heq | ⟨-, t, t', ht, ht'⟩⟩ := hi.outcome_cases hmem
  · rw [heq]
  · rw [ht, ht']
    rfl

/-- The outcomes of a complete schedule are in the order of the images. -/
lemma image_outcomes (hdone : s.IsDone) : s.outcomes.map Outcome.image = b.images := by
  have hmap : ∀ tasks : List (Path × Progress), (∀ t ∈ tasks, t ∈ s.tasks) →
      (tasks.filterMap fun task => task.2.outcome?).map Outcome.image = tasks.map Prod.fst := by
    intro tasks hsub
    induction tasks with
    | nil => rfl
    | cons task tasks ih =>
        obtain ⟨image, p⟩ := task
        have hmem := hsub (image, p) (by simp)
        obtain ⟨o, ho⟩ := Option.isSome_iff_exists.mp (hdone _ hmem)
        obtain rfl := Progress.eq_done_of_outcome? ho
        have hrest := ih fun t ht => hsub t (List.mem_cons_of_mem _ ht)
        have hcons : ((image, .done o) :: tasks).filterMap (fun task : Path × Progress =>
            task.2.outcome?) = o :: tasks.filterMap fun task => task.2.outcome? := rfl
        rw [hcons, List.map_cons, hrest, (hi.outcome_cases hmem).1, List.map_cons]
  rw [← hi.images]
  exact hmap s.tasks fun t ht => ht

/-- **What a complete schedule leaves behind.** -/
lemma isSettled (hsteady : h.faults.IsSteady) (hlinks : h.disk.HasNoLinks)
    (he : IsExtension b.converter.extension) (hnodup : b.images.Nodup)
    (hentries : ∀ i ∈ b.images, i.IsEntry) (hdone : s.IsDone) : b.IsSettled h s where
  images := hi.image_outcomes hdone
  converted o ho := by
    obtain ⟨image, hmem⟩ := mem_outcomes_iff.mp ho
    rw [(hi.outcome_cases hmem).1, hi.skipped_eq hmem]
    exact skipped_conversion_iff hsteady hnodup (hi.mem_images hmem)
  alone o ho := by
    obtain ⟨image, hmem⟩ := mem_outcomes_iff.mp ho
    rw [(hi.outcome_cases hmem).1]
    exact (hi.outcome_cases hmem).2
  stored hdry o ho hskip := by
    obtain ⟨image, hmem⟩ := mem_outcomes_iff.mp ho
    have hin := hi.mem_images hmem
    rw [hi.skipped_eq hmem] at hskip
    obtain ⟨hstores, bytes, perms, hencode, hnode⟩ :=
      node?_conversion hsteady hlinks he hnodup hin (hentries _ hin) hdry hskip
    rw [(hi.outcome_cases hmem).1]
    exact ⟨bytes, perms, hencode, by rw [hi.settled _ _ _ hmem hstores, hnode]⟩
  elsewhere l hno := by
    by_cases hstored : ∃ i o, (i, .done o) ∈ s.tasks ∧ b.StoresAt i l
    · -- the image of this target was skipped, or the run is dry
      obtain ⟨image, o, hmem, hstores⟩ := hstored
      have hskip : (b.conversion image h).1.skipped = true ∨ b.dryRun = true := by
        rw [← hi.skipped_eq hmem]
        by_contra hboth
        simp only [not_or, Bool.not_eq_true] at hboth
        refine hno o (mem_outcomes_iff.mpr ⟨image, hmem⟩) hboth.1 hboth.2 ?_
        rw [(hi.outcome_cases hmem).1]
        exact hstores.2.2
      rw [hi.settled _ _ _ hmem hstores, conversion, disk_convertAmong_of_skipped hskip]
    · exact hi.untouched l fun i o hmem hs => hstored ⟨i, o, hmem, hs⟩

/-- The tree after a complete schedule, told by the conversions alone. -/
lemma node?_eq_of_isDone {s' : State} (hi' : b.Inv h s') (hdone : s.IsDone) (hdone' : s'.IsDone)
    (l : Location) : s.host.disk.node? l = s'.host.disk.node? l := by
  have hall : ∀ {s : State}, b.Inv h s → s.IsDone → ∀ i ∈ b.images,
      ∃ o, (i, .done o) ∈ s.tasks := by
    intro s hs hd i hmem
    rw [← hs.images] at hmem
    obtain ⟨⟨i', p⟩, htask, rfl⟩ := List.mem_map.mp hmem
    obtain ⟨o, ho⟩ := Option.isSome_iff_exists.mp (hd _ htask)
    obtain rfl := Progress.eq_done_of_outcome? ho
    exact ⟨o, htask⟩
  by_cases hstored : ∃ i ∈ b.images, b.StoresAt i l
  · obtain ⟨i, hmem, hs⟩ := hstored
    obtain ⟨o, ho⟩ := hall hi hdone i hmem
    obtain ⟨o', ho'⟩ := hall hi' hdone' i hmem
    rw [hi.settled i o l ho hs, hi'.settled i o' l ho' hs]
  · rw [hi.untouched l fun i o hmem hs => hstored ⟨i, hi.mem_images hmem, hs⟩,
      hi'.untouched l fun i o hmem hs => hstored ⟨i, hi'.mem_images hmem, hs⟩]

end Inv

end Complete

/-- **All complete schedules give the same.** Let different images, given by absolute paths in normal
form with a file name, be converted side by side on a tree without links; the converter's extension
is a word without points and slashes, and what fails does not depend on the moment. Converting one
image after the other is one of the schedules. A complete schedule leaves one outcome for each image
in their order. An image is converted if it has its target for itself, can be measured and encoded
on the tree of the start, gets smaller, and can be written unless the run is dry; then its target
holds just the bytes that it was encoded to. Two complete schedules leave the same tree, and the
same outcomes up to the reason why an image below a target is not there. -/
theorem interleavings_agree (b : Batch) (h : Host) (hsteady : h.faults.IsSteady)
    (hlinks : h.disk.HasNoLinks) (he : IsExtension b.converter.extension)
    (hnodup : b.images.Nodup)
    (himages : ∀ i ∈ b.images, i.isAbsolute = true ∧ i.normal = i ∧ i.fileName?.isSome = true) :
    b.play (b.start h) (sequence 0 b.images.length)
        = ⟨(convertAll b.converter b.images b.quality b.dryRun h).1.map fun o => (o.image, .done o),
            (convertAll b.converter b.images b.quality b.dryRun h).2⟩ ∧
      ∀ schedule, (b.play (b.start h) schedule).IsDone →
        b.IsSettled h (b.play (b.start h) schedule) ∧
        ∀ schedule', (b.play (b.start h) schedule').IsDone →
          (∀ l, (b.play (b.start h) schedule).host.disk.node? l
            = (b.play (b.start h) schedule').host.disk.node? l) ∧
          ∀ o ∈ (b.play (b.start h) schedule).outcomes,
            ∀ o' ∈ (b.play (b.start h) schedule').outcomes, o.image = o'.image →
              o = o' ∨ b.LiesBelow o.image ∧
                ∃ t t', o = .failed o.image t ∧ o' = .failed o.image t' := by
  have hentries : ∀ i ∈ b.images, i.IsEntry := fun i hi =>
    Path.isEntry_of_normal (himages i hi).1 (himages i hi).2.1 (himages i hi).2.2
  have hinv : ∀ schedule, b.Inv h (b.play (b.start h) schedule) :=
    inv_play hsteady hlinks he hnodup hentries
  refine ⟨play_sequence b h, fun schedule hdone => ⟨?_, fun schedule' hdone' => ⟨?_, ?_⟩⟩⟩
  · exact (hinv schedule).isSettled hsteady hlinks he hnodup hentries hdone
  · exact (hinv schedule).node?_eq_of_isDone (hinv schedule') hdone hdone'
  · intro o ho o' ho' hsame
    have hsettled := (hinv schedule).isSettled hsteady hlinks he hnodup hentries hdone
    have hsettled' := (hinv schedule').isSettled hsteady hlinks he hnodup hentries hdone'
    have halone' := hsettled'.alone o' ho'
    rw [← hsame] at halone'
    rcases hsettled.alone o ho with heq | ⟨hbelow, t, t', ht, hc⟩
    · rcases halone' with heq' | ⟨hbelow, t, t', ht, hc⟩
      · exact Or.inl (heq.trans heq'.symm)
      · exact Or.inr ⟨hbelow, t', t, heq.trans hc, ht⟩
    · rcases halone' with heq' | ⟨-, u, u', hu, hc'⟩
      · exact Or.inr ⟨hbelow, t, t', ht, heq'.trans hc⟩
      · exact Or.inr ⟨hbelow, t, u, ht, hu⟩

/-! ### Two images -/

/-- Two images of a project, which are each cut to half of their bytes. -/
def halving (first second : Text) : Batch :=
  { converter :=
      { extension := "webp".toList
        encode := fun _ contents _ =>
          match contents with
          | .ok bytes => .ok (bytes.extract 0 (bytes.size / 2))
          | .error e => .error (.io e) }
    images := [⟨first⟩, ⟨second⟩]
    quality := 80
    dryRun := false }

/-- The steps of two images in turn leave what the conversions one after the other leave. -/
theorem interleavings_agree_in_turn :
    let b := halving "/repo/a.png".toList "/repo/b.jpg".toList
    let h := Host.ofDisk (.ofPaths ["/repo".toList]
      [("/repo/a.png".toList, ⟨#[1, 2, 3, 4]⟩), ("/repo/b.jpg".toList, ⟨#[5, 6]⟩)])
    let inTurn := b.play (b.start h) [1, 0, 1, 0, 0, 1]
    inTurn.IsDone ∧ b.IsSettled h inTurn ∧ inTurn.outcomes.map Outcome.newSize = [2, 1] ∧
      ∀ l, inTurn.host.disk.node? l
        = (convertAll b.converter b.images b.quality b.dryRun h).2.disk.node? l := by
  intro b h inTurn
  have hlinks : h.disk.HasNoLinks :=
    Disk.IsTree.hasNoLinks (show h.disk.IsTree by decide +kernel)
  obtain ⟨hsequence, hall⟩ := interleavings_agree b h (fun _ _ _ _ => rfl) hlinks
    ⟨by decide, by decide, by decide⟩ (by decide) (by decide)
  have hdone : (b.play (b.start h) [1, 0, 1, 0, 0, 1]).IsDone := by decide +kernel
  have hdone' : (b.play (b.start h) (sequence 0 b.images.length)).IsDone := by decide +kernel
  obtain ⟨hsettled, hothers⟩ := hall [1, 0, 1, 0, 0, 1] hdone
  have hsame := (hothers (sequence 0 b.images.length) hdone').1
  refine ⟨hdone, hsettled, by decide +kernel, fun l => ?_⟩
  rw [hsame l, hsequence]

/-- **Two complete schedules may tell different reasons**: an image that is not there lies below the
target of another one, which is a file once that was stored. -/
theorem interleavings_differ :
    let b := halving "/repo/a.png".toList "/repo/a.webp/b.png".toList
    let h := Host.ofDisk (.ofPaths ["/repo".toList] [("/repo/a.png".toList, ⟨#[1, 2, 3, 4]⟩)])
    h.faults.IsSteady ∧ h.disk.IsTree ∧ IsExtension b.converter.extension ∧ b.images.Nodup ∧
      (∀ i ∈ b.images, i.isAbsolute = true ∧ i.normal = i ∧ i.fileName?.isSome = true) ∧
      (b.play (b.start h) [0, 0, 0, 1]).IsDone ∧ (b.play (b.start h) [1, 0, 0, 0]).IsDone ∧
      (b.play (b.start h) [0, 0, 0, 1]).outcomes ≠ (b.play (b.start h) [1, 0, 0, 0]).outcomes := by
  intro b h
  refine ⟨fun _ _ _ _ => rfl, by decide +kernel, ⟨by decide, by decide, by decide⟩, by decide,
    by decide, by decide +kernel, by decide +kernel, by decide +kernel⟩

end ImageMigration.Batch
