/-
Converting a list of images, seen at the tree.

New images get an extension that neither images nor sources have. So a conversion changes no image,
every image is encoded as the run found it, and two new images never share a place: their images
would have been refused.

* `IsNewImage`, `Converter.target_cases`: the places of new images;
* `convertAmong_cases`: one image was stored, or the tree stayed;
* `Outcome.IsStored`: what an outcome that was not skipped tells;
* `filesChanged_convertAll`, `isStored_of_mem_convertAll`: **what a batch leaves behind.**
-/
import ImageMigration.Proofs.Conversion.Answers
import ImageMigration.Proofs.Inventory.Visits

namespace ImageMigration

open Disk (pathOf FilesChanged KeepsEntries)

/-! ### Places of new images -/

/-- A place for a file with a new extension. -/
structure IsNewImage (e : Text) (p : Path) : Prop where
  isPlace : p.IsPlace
  extension : p.extension? = some e
  not_image : p.isImage = false
  not_code : p.isCode = false

/-- An image is a stem with an extension. -/
lemma Disk.HoldsFile.exists_stem {d : Disk} {image : Path} (hf : d.HoldsFile image)
    (hi : image.isImage = true) :
    ∃ l stem e, AreNames (l ++ [stem ++ '.' :: e]) ∧ image = pathOf (l ++ [stem ++ '.' :: e]) ∧
      '.' ∉ e ∧ stem ≠ [] := by
  obtain ⟨l, n, hplace⟩ := hf.concat
  obtain ⟨hnames, hpath⟩ := hf.isPlace
  rw [hplace] at hnames hpath
  rw [← hpath, Path.isImage_pathOf hnames] at hi
  obtain ⟨stem, e, rfl, hdot, hne, -⟩ := exists_extension_of_isImageName hi
  exact ⟨l, stem, e, hnames, hpath.symm, hdot, hne⟩

/-- The place of a new image has the new extension. Only an image whose stem is a point has none:
its target leads to the directory above. -/
lemma Converter.target_cases {c : Converter} {d : Disk} {image : Path}
    (he : IsNewExtension c.extension) (hf : d.HoldsFile image) (hi : image.isImage = true) :
    IsNewImage c.extension (c.target image) ∨
      ∃ l, AreNames l ∧ c.target image = pathOf (l ++ [['.', '.']]) := by
  obtain ⟨l, stem, e, hnames, rfl, hdot, hne⟩ := hf.exists_stem hi
  rw [target, withExtension_pathOf hnames hdot hne he.ne_nil]
  split
  · exact Or.inr ⟨l, hnames.left, rfl⟩
  · left
    have hnew : AreNames (l ++ [stem ++ '.' :: c.extension]) :=
      hnames.left.concat (hnames.last.set_extension hne he.ne_nil he.no_slash)
    refine ⟨isPlace_pathOf hnew, ?_, ?_, ?_⟩
    · rw [Path.extension?_pathOf hnew, Path.splitName_eq_some_iff.mpr ⟨rfl, he.no_dot, hne⟩]
    · rw [Path.isImage_pathOf hnew, he.not_isImageName]
    · rw [Path.isCode_pathOf hnew, he.not_isCodeName]

/-! ### One image -/

/-- Storing an encoded image writes it, or leaves the tree as it is. -/
lemma store_cases (image target : Path) (oldSize : Nat) (encoded : Bytes) (dryRun : Bool)
    (h : Host) :
    (store image target oldSize encoded dryRun h).1.image = image ∧
      (((store image target oldSize encoded dryRun h).2.disk = h.disk ∧
          ((store image target oldSize encoded dryRun h).1.skipped = true ∨ dryRun = true)) ∨
        (encoded.size < oldSize ∧
          (store image target oldSize encoded dryRun h).1.converted = target ∧
          h.disk.write? target encoded
            = .ok (store image target oldSize encoded dryRun h).2.disk)) := by
  have hends := storeEnds image target oldSize encoded dryRun h
  generalize store image target oldSize encoded dryRun h = result at hends ⊢
  cases hends with
  | kept => exact ⟨rfl, Or.inl ⟨rfl, Or.inl rfl⟩⟩
  | previewed hsize hdry => exact ⟨rfl, Or.inl ⟨rfl, Or.inr hdry⟩⟩
  | unwritable => exact ⟨rfl, Or.inl ⟨rfl, Or.inl rfl⟩⟩
  | written disk hsize hwet hwrite =>
      exact ⟨rfl, Or.inr ⟨hsize, rfl, Host.eq_ok_of_answer hwrite⟩⟩

/-- **Converting one image**: the new image was stored, or the tree stayed. -/
lemma convertAmong_cases (c : Converter) (images : List Path) (quality : Nat) (dryRun : Bool)
    (image : Path) (h : Host) :
    (convertAmong c images quality dryRun image h).1.image = image ∧
      (((convertAmong c images quality dryRun image h).2.disk = h.disk ∧
          ((convertAmong c images quality dryRun image h).1.skipped = true ∨ dryRun = true)) ∨
        (c.collides images image = false ∧
          (convertAmong c images quality dryRun image h).1.converted = c.target image ∧
          ∃ old new, h.disk.size? image = .ok old ∧
            c.encode image (h.disk.read? image) quality = .ok new ∧ new.size < old ∧
            h.disk.write? (c.target image) new
              = .ok (convertAmong c images quality dryRun image h).2.disk)) := by
  have hends := conversionEnds c images quality dryRun image h
  generalize convertAmong c images quality dryRun image h = result at hends ⊢
  cases hends with
  | refused => exact ⟨rfl, Or.inl ⟨rfl, Or.inl rfl⟩⟩
  | unmeasured => exact ⟨rfl, Or.inl ⟨rfl, Or.inl rfl⟩⟩
  | unencoded => exact ⟨rfl, Or.inl ⟨rfl, Or.inl rfl⟩⟩
  | encoded old new hfree hstat hencode =>
      obtain ⟨himage, hstore⟩ :=
        store_cases image (c.target image) old new dryRun h.tick.tick
      refine ⟨himage, hstore.imp id fun ⟨hlt, hconv, hwrite⟩ => ?_⟩
      exact ⟨hfree, hconv, old, new, Host.eq_ok_of_answer hstat,
        (run_cases c image quality h.tick).2 new hencode, hlt, hwrite⟩

/-! ### A list of images -/

lemma image_convertEach (c : Converter) (all : List Path) (quality : Nat) (dryRun : Bool)
    (images : List Path) (h : Host) :
    (convertEach c all quality dryRun images h).1.map Outcome.image = images := by
  induction images generalizing h with
  | nil => rfl
  | cons image images ih =>
      rw [convertEach]
      simp only [List.map_cons]
      rw [ih, (convertAmong_cases c all quality dryRun image h).1]

/-- The outcomes of a batch are those of its images. -/
lemma image_convertAll (c : Converter) (images : List Path) (quality : Nat) (dryRun : Bool)
    (h : Host) : (convertAll c images quality dryRun h).1.map Outcome.image = images :=
  image_convertEach c images quality dryRun images h

/-- Two images with one target are refused. -/
lemma collides_of_target_eq {c : Converter} {images : List Path} {i j : Path} (hi : i ∈ images)
    (hj : j ∈ images) (hne : i ≠ j) (ht : c.target i = c.target j) :
    c.collides images i = true := by
  have hmem : ∀ x ∈ images, c.target x = c.target i →
      x ∈ images.filter fun k => (c.target k).same (c.target i) := by
    intro x hx hsame
    rw [List.mem_filter, hsame]
    exact ⟨hx, by simp [Path.same]⟩
  have hi' := hmem i hi rfl
  have hj' := hmem j hj ht.symm
  rw [Converter.collides, decide_eq_true_eq]
  cases hl : images.filter fun k => (c.target k).same (c.target i) with
  | nil => rw [hl] at hi'; exact absurd hi' (by simp)
  | cons x rest =>
      cases rest with
      | nil =>
          rw [hl, List.mem_singleton] at hi' hj'
          exact absurd (hi'.trans hj'.symm) hne
      | cons y rest => simp

/-- The places where a batch may write. -/
def Converter.IsTarget (c : Converter) (all images : List Path) (l : Location) : Prop :=
  ∃ i ∈ images, c.collides all i = false ∧ IsNewImage c.extension (c.target i) ∧
    Listing.place (c.target i) = l

/-- What an outcome that was not skipped tells: the image was encoded to fewer bytes, which one tree
has in the place of the new image. The image is as it was in the other tree. -/
structure Outcome.IsStored (o : Outcome) (c : Converter) (quality : Nat) (d d' : Disk) : Prop where
  target : o.converted = c.target o.image
  isNew : IsNewImage c.extension o.converted
  bytes : ∃ old new perms perms', d.node? (Listing.place o.image) = some ⟨.file old, perms⟩ ∧
    c.encode o.image (d.read? o.image) quality = .ok new ∧ new.size < old.size ∧
    d'.node? (Listing.place o.converted) = some ⟨.file new, perms'⟩

lemma Outcome.IsStored.mono {o : Outcome} {c : Converter} {quality : Nat} {d d' d'' : Disk}
    (h : o.IsStored c quality d d')
    (hsame : d''.node? (Listing.place o.converted) = d'.node? (Listing.place o.converted)) :
    o.IsStored c quality d d'' := by
  obtain ⟨old, new, perms, perms', hold, hnew, hlt, hnode⟩ := h.bytes
  exact ⟨h.target, h.isNew, old, new, perms, perms', hold, hnew, hlt, hsame.trans hnode⟩

section Batch

variable {c : Converter} {all images : List Path} {quality : Nat} {d d' : Disk} {image : Path}
  {l : Location} {h : Host}

/-- No image is a target. -/
lemma not_isTarget_place {p : Path} (hp : p.IsPlace) (hkind : p.isImage = true ∨ p.isCode = true) :
    ¬ c.IsTarget all images (Listing.place p) := by
  rintro ⟨i, -, -, hnew, hplace⟩
  have heq := hnew.isPlace.eq_of_place_eq hp hplace
  rw [← heq, hnew.not_image, hnew.not_code] at hkind
  exact absurd hkind (by simp)

/-- A file that is not among the changed ones is read as before. -/
lemma Disk.HoldsFile.node?_take_eq {places : Location → Prop} (hd : d.IsTree)
    (hf : d.HoldsFile image) (hchanged : FilesChanged places d d')
    (hout : ¬ places (Listing.place image)) :
    ∀ k ≤ (Listing.place image).length,
      d'.node? ((Listing.place image).take k) = d.node? ((Listing.place image).take k) := by
  obtain ⟨bytes, perms, hnode⟩ := hf.node
  exact hchanged.node?_take_eq hout fun k hk => hd.isDir_above hk hnode

/-- One step of a batch: what it wrote, if it wrote anything, and what its outcome tells. -/
lemma convertAmong_spec (hd : d.IsTree) (he : IsNewExtension c.extension)
    (hf : d.HoldsFile image) (hi : image.isImage = true)
    (hchanged : FilesChanged (c.IsTarget all all) d h.disk) (quality : Nat) (dryRun : Bool) :
    FilesChanged (c.IsTarget all [image]) h.disk
        (convertAmong c all quality dryRun image h).2.disk ∧
      KeepsEntries h.disk (convertAmong c all quality dryRun image h).2.disk ∧
      ((convertAmong c all quality dryRun image h).1.skipped = false → dryRun = false →
        c.collides all image = false ∧
        (convertAmong c all quality dryRun image h).1.IsStored c quality d
          (convertAmong c all quality dryRun image h).2.disk) := by
  have hlinks := hchanged.hasNoLinks hd.hasNoLinks
  obtain ⟨himage, ⟨hsame, hskip⟩ | ⟨hcollide, hconv, old, new, hsize, hencode, hlt, hwrite⟩⟩ :=
    convertAmong_cases c all quality dryRun image h
  · rw [hsame]
    refine ⟨FilesChanged.refl _ _, KeepsEntries.refl _, fun hno hdry => ?_⟩
    rw [hno, hdry] at hskip
    exact absurd hskip (by simp)
  generalize convertAmong c all quality dryRun image h = result at himage hconv hwrite ⊢
  rcases Converter.target_cases he hf hi with hnew | ⟨l, hl, hdots⟩
  · obtain ⟨hnames, hpath⟩ := hnew.isPlace
    rw [← hpath] at hwrite
    obtain ⟨hne, -, perms', -, hput⟩ := Disk.write?_pathOf hlinks hnames hwrite
    have hwritten : result.2.disk.node? (Listing.place (c.target image))
        = some ⟨.file new, perms'⟩ := by
      rw [hput, Disk.node?_put hne, if_pos rfl]
    refine ⟨?_, ?_, fun _ _ => ⟨hcollide, ?_⟩⟩
    · refine (Disk.filesChanged_write? hlinks hnames hwrite).mono ?_
      rintro l rfl
      exact ⟨image, by simp, hcollide, hnew, rfl⟩
    · rw [hput]
      exact KeepsEntries.put hne _
    · -- the image is as the run found it, for no target is an image
      have hread := hf.node?_take_eq hd hchanged (not_isTarget_place hf.isPlace (Or.inl hi))
      obtain ⟨bytes, perms, hnode⟩ := hf.node
      have hnode' : h.disk.node? (Listing.place image) = some ⟨.file bytes, perms⟩ := by
        rw [← hnode]
        simpa using hread _ (Nat.le_refl _)
      rw [← hf.isPlace.2] at hsize hencode
      have hold := Disk.size?_pathOf hlinks hf.isPlace.1 hnode' hsize
      rw [Disk.read?_congr hd.hasNoLinks hlinks hf.isPlace.1 hread, hf.isPlace.2] at hencode
      rw [hold] at hlt
      refine ⟨by rw [hconv, himage], by rw [hconv]; exact hnew, bytes, new, perms, perms', ?_⟩
      rw [himage, hconv]
      exact ⟨hnode, hencode, hlt, hwritten⟩
  · rw [hdots] at hwrite
    exact absurd hwrite (Disk.not_write?_pathOf_dots hlinks hl new)

/-- The steps of a batch from any of its states on. -/
lemma convertEach_spec (hd : d.IsTree) (he : IsNewExtension c.extension)
    (hall : ∀ i ∈ all, d.HoldsFile i ∧ i.isImage = true) (hsub : images ⊆ all)
    (hnodup : images.Nodup) (hchanged : FilesChanged (c.IsTarget all all) d h.disk) (quality : Nat)
    (dryRun : Bool) :
    FilesChanged (c.IsTarget all images) h.disk
        (convertEach c all quality dryRun images h).2.disk ∧
      KeepsEntries h.disk (convertEach c all quality dryRun images h).2.disk ∧
      ∀ o ∈ (convertEach c all quality dryRun images h).1, o.skipped = false → dryRun = false →
        o.IsStored c quality d (convertEach c all quality dryRun images h).2.disk := by
  induction images generalizing h with
  | nil =>
      refine ⟨FilesChanged.refl _ _, KeepsEntries.refl _, fun o ho => ?_⟩
      exact absurd ho (by simp [convertEach])
  | cons image images ih =>
      obtain ⟨hmem, hsub'⟩ := List.cons_subset.mp hsub
      obtain ⟨hnot, hnodup'⟩ := List.nodup_cons.mp hnodup
      obtain ⟨hf, hi⟩ := hall image hmem
      obtain ⟨hfirst, hkeeps, hstored⟩ := convertAmong_spec hd he hf hi hchanged quality dryRun
      have hname : (convertAmong c all quality dryRun image h).1.image = image :=
        (convertAmong_cases c all quality dryRun image h).1
      have hsingle : ∀ l, c.IsTarget all [image] l → c.IsTarget all all l := by
        rintro l ⟨i, hi, hrest⟩
        rw [List.mem_singleton] at hi
        exact ⟨i, by rw [hi]; exact hmem, hrest⟩
      obtain ⟨hrest, hkeeps', hstored'⟩ :=
        ih hsub' hnodup' (hchanged.trans (hfirst.mono hsingle))
      rw [convertEach]
      simp only
      generalize convertAmong c all quality dryRun image h = first at *
      refine ⟨(hfirst.mono ?_).trans (hrest.mono ?_), hkeeps.trans hkeeps', ?_⟩
      · rintro l ⟨i, hi, hl⟩
        rw [List.mem_singleton] at hi
        exact ⟨i, by simp [hi], hl⟩
      · rintro l ⟨i, hi, hl⟩
        exact ⟨i, by simp [hi], hl⟩
      · intro o ho hskip hdry
        rcases List.mem_cons.mp ho with rfl | ho
        · -- no later image has the target of this one
          obtain ⟨hcollide, hold⟩ := hstored hskip hdry
          refine hold.mono (hrest.node?_eq ?_)
          rintro ⟨j, hj, -, hnew, hplace⟩
          have htarget := hnew.isPlace.eq_of_place_eq hold.isNew.isPlace hplace
          rw [hold.target, hname] at htarget
          have hne : image ≠ j := by
            rintro rfl
            exact hnot hj
          rw [collides_of_target_eq hmem (hsub' hj) hne htarget.symm] at hcollide
          exact absurd hcollide (by simp)
        · exact hstored' o ho hskip hdry

variable (hd : h.disk.IsTree) (he : IsNewExtension c.extension)
  (himages : ∀ i ∈ images, h.disk.HoldsFile i ∧ i.isImage = true) (hnodup : images.Nodup)

include hd he himages hnodup

/-- **A batch changes files at its targets only.** -/
lemma filesChanged_convertAll (quality : Nat) (dryRun : Bool) :
    FilesChanged (c.IsTarget images images) h.disk
      (convertAll c images quality dryRun h).2.disk :=
  (convertEach_spec hd he himages (List.Subset.refl _) hnodup (FilesChanged.refl _ _) quality
    dryRun).1

lemma keepsEntries_convertAll (quality : Nat) (dryRun : Bool) :
    KeepsEntries h.disk (convertAll c images quality dryRun h).2.disk :=
  (convertEach_spec hd he himages (List.Subset.refl _) hnodup (FilesChanged.refl _ _) quality
    dryRun).2.1

/-- **Every image that was not skipped has its smaller copy** at the end of the batch. -/
lemma isStored_of_mem_convertAll {o : Outcome}
    (ho : o ∈ (convertAll c images quality false h).1) (hskip : o.skipped = false) :
    o.IsStored c quality h.disk (convertAll c images quality false h).2.disk :=
  (convertEach_spec hd he himages (List.Subset.refl _) hnodup (FilesChanged.refl _ _) quality
    false).2.2 o ho hskip rfl

end Batch

end ImageMigration
