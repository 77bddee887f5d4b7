/-
Conversions, told by the answers of the machine.

An image is measured, encoded and stored, and each of these can fail. So its conversion ends in a
few ways only, and two machines that give the same answers convert an image to the same outcome.

* `Converter.run_eq`, `Converter.run_congr`: what encoding gives;
* `store_eq`, `convertAmong_of_free`: storing and converting an image, by the answers;
* `StoreEnds`, `ConversionEnds`: **all the ways in which storing and converting an image can end;**
* `skipped_store_iff`, `disk_convertAmong_of_skipped`: what is stored, and when the tree stays.
-/
import ImageMigration.Conversion
import ImageMigration.Proofs.Host.Answers

namespace ImageMigration

namespace Converter

variable {c : Converter} {image : Path} {quality : Nat} {h h' : Host}

/-- What encoding gives. -/
lemma run_eq (c : Converter) (image : Path) (quality : Nat) (h : Host) :
    c.run image quality h
      = (match h.faults h.clock .encode image with
          | some e => .error (.io e)
          | none => c.encode image (h.disk.read? image) quality, h.tick) := by
  rw [run]
  cases h.faults h.clock .encode image <;> rfl

/-- Two machines on which the same fails encode an image to the same, if they read the same. -/
lemma run_congr (hs : h.faults.IsSteady) (hf : h'.faults = h.faults)
    (hread : h'.disk.read? image = h.disk.read? image) :
    (c.run image quality h').1 = (c.run image quality h).1 := by
  rw [run_eq, run_eq, hf, hs h'.clock h.clock, hread]

end Converter

lemma run_cases (c : Converter) (image : Path) (quality : Nat) (h : Host) :
    (c.run image quality h).2.disk = h.disk ∧
      ∀ new, (c.run image quality h).1 = .ok new →
        c.encode image (h.disk.read? image) quality = .ok new := by
  rw [Converter.run]
  cases h.faults h.clock .encode image with
  | some e => exact ⟨rfl, fun new hnew => absurd hnew (by simp)⟩
  | none => exact ⟨rfl, fun new hnew => hnew⟩

/-! ### Conversions -/

section Conversions

variable {c : Converter} {images : List Path} {image target : Path} {quality oldSize : Nat}
  {encoded : Bytes} {dryRun : Bool} {h : Host}

/-- What is stored, and what becomes of the machine. -/
lemma store_eq (image target : Path) (oldSize : Nat) (encoded : Bytes) (dryRun : Bool) (h : Host) :
    store image target oldSize encoded dryRun h
      = let outcome : Outcome :=
          { image, converted := target, oldSize, newSize := encoded.size, skipped := false,
            error := none }
        if oldSize ≤ encoded.size then
          ({ outcome with skipped := true }, h.report (.keeping image oldSize encoded.size))
        else if dryRun then (outcome, h)
        else match h.answer .write target (·.write? target encoded) with
          | .error e => ({ outcome with skipped := true, error := some e.message },
              h.tick.report (.failed .write target e.message))
          | .ok disk => (outcome, Host.report { h.tick with disk }
              (.changed .write target (some (sizeDetails oldSize encoded.size)))) := by
  rw [store, Host.change_eq]
  cases h.answer .write target (·.write? target encoded) <;> rfl

/-- The conversion of an image that has its target for itself. -/
lemma convertAmong_of_free (hfree : c.collides images image = false) (quality : Nat)
    (dryRun : Bool) (h : Host) :
    convertAmong c images quality dryRun image h
      = match h.answer .stat image (·.size? image) with
        | .error e => giveUp h.tick .stat image e.message
        | .ok size =>
          match (c.run image quality h.tick).1 with
          | .error failure => giveUp h.tick.tick .encode image failure.message
          | .ok bytes => store image (c.target image) size bytes dryRun h.tick.tick := by
  rw [convertAmong, if_neg (by simp [hfree]), convertOne, Host.look_eq]
  cases h.answer .stat image (·.size? image) with
  | error e => rfl
  | ok size =>
      simp only [Converter.run_eq]
      split <;> rename_i heq <;> rw [Prod.mk.injEq] at heq <;> rw [heq.1, ← heq.2]

/-- Storing an encoded image ends with `result`: the old image is kept since the new one is no
smaller, the run is dry, the new image cannot be written, or it was written. -/
inductive StoreEnds (image target : Path) (oldSize : Nat) (encoded : Bytes) (dryRun : Bool)
    (h : Host) : (result : Outcome × Host) → Prop
  | kept (hsize : oldSize ≤ encoded.size) : StoreEnds image target oldSize encoded dryRun h
      ({ image, converted := target, oldSize, newSize := encoded.size, skipped := true,
         error := none }, h.report (.keeping image oldSize encoded.size))
  | previewed (hsize : encoded.size < oldSize) (hdry : dryRun = true) :
      StoreEnds image target oldSize encoded dryRun h
      ({ image, converted := target, oldSize, newSize := encoded.size, skipped := false,
         error := none }, h)
  | unwritable (e : OsError) (hsize : encoded.size < oldSize) (hwet : dryRun = false)
      (hwrite : h.answer .write target (·.write? target encoded) = .error e) :
      StoreEnds image target oldSize encoded dryRun h
      ({ image, converted := target, oldSize, newSize := encoded.size, skipped := true,
         error := some e.message }, h.tick.report (.failed .write target e.message))
  | written (disk : Disk) (hsize : encoded.size < oldSize) (hwet : dryRun = false)
      (hwrite : h.answer .write target (·.write? target encoded) = .ok disk) :
      StoreEnds image target oldSize encoded dryRun h
      ({ image, converted := target, oldSize, newSize := encoded.size, skipped := false,
         error := none }, Host.report { h.tick with disk }
          (.changed .write target (some (sizeDetails oldSize encoded.size))))

/-- **Storing ends in one of these ways.** -/
lemma storeEnds (image target : Path) (oldSize : Nat) (encoded : Bytes) (dryRun : Bool) (h : Host) :
    StoreEnds image target oldSize encoded dryRun h
      (store image target oldSize encoded dryRun h) := by
  rw [store_eq]
  by_cases hsize : oldSize ≤ encoded.size
  · simpa only [if_pos hsize] using .kept hsize
  have hlt : encoded.size < oldSize := by omega
  simp only [if_neg hsize]
  cases hdry : dryRun with
  | true => exact .previewed hlt rfl
  | false =>
      simp only [Bool.false_eq_true, if_false]
      cases hwrite : h.answer .write target (·.write? target encoded) with
      | error e => exact .unwritable e hlt rfl hwrite
      | ok disk => exact .written disk hlt rfl hwrite

/-- The conversion of an image among others ends with `result`: it is refused since another image
has its target, it cannot be measured or encoded, or what it was encoded to is stored. -/
inductive ConversionEnds (c : Converter) (images : List Path) (quality : Nat) (dryRun : Bool)
    (image : Path) (h : Host) : (result : Outcome × Host) → Prop
  | refused (hcollides : c.collides images image = true) :
      ConversionEnds c images quality dryRun image h
        (.failed image (collisionMessage (c.target image)), h)
  | unmeasured (e : OsError) (hfree : c.collides images image = false)
      (hstat : h.answer .stat image (·.size? image) = .error e) :
      ConversionEnds c images quality dryRun image h (giveUp h.tick .stat image e.message)
  | unencoded (size : Nat) (failure : Failure) (hfree : c.collides images image = false)
      (hstat : h.answer .stat image (·.size? image) = .ok size)
      (hencode : (c.run image quality h.tick).1 = .error failure) :
      ConversionEnds c images quality dryRun image h
        (giveUp h.tick.tick .encode image failure.message)
  | encoded (size : Nat) (bytes : Bytes) (hfree : c.collides images image = false)
      (hstat : h.answer .stat image (·.size? image) = .ok size)
      (hencode : (c.run image quality h.tick).1 = .ok bytes) :
      ConversionEnds c images quality dryRun image h
        (store image (c.target image) size bytes dryRun h.tick.tick)

/-- **The conversion of an image ends in one of these ways.** -/
lemma conversionEnds (c : Converter) (images : List Path) (quality : Nat) (dryRun : Bool)
    (image : Path) (h : Host) :
    ConversionEnds c images quality dryRun image h
      (convertAmong c images quality dryRun image h) := by
  cases hfree : c.collides images image with
  | true =>
      rw [convertAmong, if_pos hfree]
      exact .refused hfree
  | false =>
      rw [convertAmong_of_free hfree]
      cases hstat : h.answer .stat image (·.size? image) with
      | error e => exact .unmeasured e hfree hstat
      | ok size =>
          simp only
          cases hencode : (c.run image quality h.tick).1 with
          | error failure => exact .unencoded size failure hfree hstat hencode
          | ok bytes => exact .encoded size bytes hfree hstat hencode

/-- What is stored is smaller, and can be written unless the run is dry. -/
lemma skipped_store_iff (image target : Path) (oldSize : Nat) (encoded : Bytes) (dryRun : Bool)
    (h : Host) :
    (store image target oldSize encoded dryRun h).1.skipped = false ↔
      encoded.size < oldSize ∧
        (dryRun = false → ∃ disk,
          h.answer .write target (·.write? target encoded) = .ok disk) := by
  have hends := storeEnds image target oldSize encoded dryRun h
  generalize store image target oldSize encoded dryRun h = result at hends ⊢
  cases hends with
  | kept hsize => exact iff_of_false (by simp) fun hlt => absurd hlt.1 (by omega)
  | previewed hsize hdry => simp [hsize, hdry]
  | unwritable e hsize hwet hwrite => simp [hwet, hwrite]
  | written disk hsize hwet hwrite => simp [hsize, hwrite]

/-- Storing an image that is skipped, or in a dry run, leaves the tree. -/
lemma disk_store_of_skipped
    (hskip : (store image target oldSize encoded dryRun h).1.skipped = true ∨ dryRun = true) :
    (store image target oldSize encoded dryRun h).2.disk = h.disk := by
  have hends := storeEnds image target oldSize encoded dryRun h
  generalize store image target oldSize encoded dryRun h = result at hends hskip ⊢
  cases hends with
  | kept => rfl
  | previewed => rfl
  | unwritable => rfl
  | written disk hsize hwet hwrite => simp [hwet] at hskip

/-- So does the conversion of an image that is skipped. -/
lemma disk_convertAmong_of_skipped
    (hskip : (convertAmong c images quality dryRun image h).1.skipped = true ∨ dryRun = true) :
    (convertAmong c images quality dryRun image h).2.disk = h.disk := by
  have hends := conversionEnds c images quality dryRun image h
  generalize convertAmong c images quality dryRun image h = result at hends hskip ⊢
  cases hends with
  | refused => rfl
  | unmeasured => rfl
  | unencoded => rfl
  | encoded => exact disk_store_of_skipped hskip

end Conversions

end ImageMigration
