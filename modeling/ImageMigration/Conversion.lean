/-
Re-encoding images.

Each image is measured, encoded and written, and none of this depends on the other images, except
that two images with one target are both refused. A new image replaces nothing: it is written only
if it is smaller than the image at hand, and that image stays.

* `Converter`: an encoder and the extension of its images;
* `convertOne`: one image; `convertAll`: a list of images, one outcome for each in their order.
-/
import ImageMigration.Host
import ImageMigration.Outcome

namespace ImageMigration

/-- A way to encode images. The result depends on the path, on what reading the image gives, and on
the quality. -/
structure Converter where
  extension : Text
  encode : Path → Except OsError Bytes → Nat → Except Failure Bytes

namespace Converter

/-- The place of the new image. -/
def target (c : Converter) (image : Path) : Path := image.withExtension c.extension

/-- Encodes an image on a machine. -/
def run (c : Converter) (image : Path) (quality : Nat) (h : Host) : Except Failure Bytes × Host :=
  match h.faults h.clock .encode image with
  | some e => (.error (.io e), { h with clock := h.clock + 1 })
  | none => (c.encode image (h.disk.read? image) quality, { h with clock := h.clock + 1 })

/-- Whether more than one of several images has the same target as a given one. -/
def collides (c : Converter) (images : List Path) (image : Path) : Bool :=
  1 < (images.filter fun i => (c.target i).same (c.target image)).length

end Converter

/-- Reports an image that was given up and gives its outcome. -/
def giveUp (h : Host) (operation : Operation) (image : Path) (message : Text) : Outcome × Host :=
  (.failed image message, h.report (.failed operation image message))

/-- The details of a write in the log. -/
def sizeDetails (oldSize newSize : Nat) : Text :=
  Text.ofNat oldSize ++ " -> ".toList ++ Text.ofNat newSize ++ " bytes".toList

/-- Writes an encoded image, if it is worth it. -/
def store (image target : Path) (oldSize : Nat) (encoded : Bytes) (dryRun : Bool) (h : Host) :
    Outcome × Host :=
  let outcome : Outcome :=
    { image, converted := target, oldSize, newSize := encoded.size,
      skipped := false, error := none }
  if oldSize ≤ encoded.size then
    ({ outcome with skipped := true }, h.report (.keeping image oldSize encoded.size))
  else if dryRun then (outcome, h)
  else match h.change .write target (·.write? target encoded) with
    | (.error e, h) =>
      ({ outcome with skipped := true, error := some e.message },
        h.report (.failed .write target e.message))
    | (.ok (), h) =>
      (outcome, h.report (.changed .write target (some (sizeDetails oldSize encoded.size))))

/-- Converts one image. -/
def convertOne (c : Converter) (quality : Nat) (dryRun : Bool) (image : Path) (h : Host) :
    Outcome × Host :=
  match h.look .stat image (·.size? image) with
  | (.error e, h) => giveUp h .stat image e.message
  | (.ok oldSize, h) =>
    match c.run image quality h with
    | (.error failure, h) => giveUp h .encode image failure.message
    | (.ok encoded, h) => store image (c.target image) oldSize encoded dryRun h

/-- The message about images with one target. -/
def collisionMessage (target : Path) : Text :=
  target.text ++ " would be produced by more than one image".toList

/-- Converts one image among others. -/
def convertAmong (c : Converter) (images : List Path) (quality : Nat) (dryRun : Bool) (image : Path)
    (h : Host) : Outcome × Host :=
  if c.collides images image then (.failed image (collisionMessage (c.target image)), h)
  else convertOne c quality dryRun image h

/-- Converts some of a list of images, one after the other. -/
def convertEach (c : Converter) (all : List Path) (quality : Nat) (dryRun : Bool) :
    List Path → Host → List Outcome × Host
  | [], h => ([], h)
  | image :: rest, h =>
    let (outcome, h) := convertAmong c all quality dryRun image h
    let (outcomes, h) := convertEach c all quality dryRun rest h
    (outcome :: outcomes, h)

/-- Converts a list of images. -/
def convertAll (c : Converter) (images : List Path) (quality : Nat) (dryRun : Bool) (h : Host) :
    List Outcome × Host :=
  convertEach c images quality dryRun images h

/-! ### The encoder of the command line -/

/-- What stands at the start of a PNG file. -/
def pngSignature : List UInt8 := [0x89, 0x50, 0x4E, 0x47, 0x0D, 0x0A, 0x1A, 0x0A]

/-- Why a PNG file cannot be decoded, by its start. The signature is looked at in two halves. -/
def pngFault (bytes : List UInt8) : ImageFault :=
  if bytes.length < 4 then .truncated
  else if bytes.take 4 ≠ pngSignature.take 4 then .pngSignature
  else if bytes.length < 8 then .truncated
  else if bytes.take 8 ≠ pngSignature then .pngSignature
  else .noEncoder

/-- Why a JPEG file cannot be decoded, by its start. -/
def jpegFault (bytes : List UInt8) : ImageFault :=
  if bytes.take 2 = [0xFF, 0xD8] then .noEncoder else .jpegStart

/-- Why an image cannot be decoded. -/
def imageFault (image : Path) : Except OsError Bytes → ImageFault
  | .error e => .unreadable e
  | .ok bytes =>
    let start := (bytes.extract 0 8).toList
    if image.extension?.any fun e => e.map Char.toLower = "png".toList then pngFault start
    else jpegFault start

/-- The encoder of the command line. It tells why an image cannot be decoded and encodes none. -/
def Converter.webp : Converter :=
  { extension := "webp".toList
    encode := fun image contents _ => .error (.image (imageFault image contents)) }

end ImageMigration
