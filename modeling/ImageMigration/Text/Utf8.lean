/-
Bytes of texts.

* `Text.toUtf8`, `Text.ofUtf8?`: the bytes of a text, and the text that bytes are, if they are one:
  each determines the other (`Text.ofUtf8?_eq_some_iff`);
* `Text.ofBytes`: the text of bytes of which some may belong to no character; a mark takes the
  place of each of those.
-/
import ImageMigration.Text

namespace ImageMigration

/-- The contents of a file. -/
abbrev Bytes := ByteArray

namespace Text

/-- The bytes of a text. -/
def toUtf8 (t : Text) : Bytes := (String.ofList t).toUTF8

/-- The text that bytes are. -/
def ofUtf8? (b : Bytes) : Option Text := (String.fromUTF8? b).map String.toList

/-- A text and its bytes determine each other. -/
theorem ofUtf8?_eq_some_iff {b : Bytes} {t : Text} : ofUtf8? b = some t ↔ t.toUtf8 = b := by
  rw [ofUtf8?, toUtf8, Option.map_eq_some_iff]
  constructor
  · rintro ⟨s, hs, rfl⟩
    rw [String.ofList_toList]
    rw [String.fromUTF8?] at hs
    split at hs
    · rw [Option.some.injEq] at hs
      rw [← hs]
      rfl
    · exact absurd hs (by simp)
  · rintro rfl
    refine ⟨String.ofList t, ?_, String.toList_ofList⟩
    have hvalid : (String.ofList t).toUTF8.IsValidUTF8 := (String.ofList t).isValidUTF8
    rw [String.fromUTF8?, dif_pos hvalid]
    rfl

/-- The low six bits of a byte inside a character. -/
def continuation? (b : UInt8) : Option Nat :=
  if 0x80 ≤ b ∧ b ≤ 0xBF then some (b.toNat - 0x80) else none

/-- The character in front of a list of bytes, and how many bytes it has. -/
def firstChar? : List UInt8 → Option (Char × Nat)
  | [] => none
  | b :: rest =>
    if b < 0x80 then some (Char.ofNat b.toNat, 1)
    else if 0xC2 ≤ b ∧ b ≤ 0xDF then do
      let c ← rest[0]? >>= continuation?
      some (Char.ofNat ((b.toNat - 0xC0) * 0x40 + c), 2)
    else if 0xE0 ≤ b ∧ b ≤ 0xEF then do
      let c ← rest[0]? >>= continuation?
      let d ← rest[1]? >>= continuation?
      let n := ((b.toNat - 0xE0) * 0x40 + c) * 0x40 + d
      if 0x800 ≤ n ∧ ¬(0xD800 ≤ n ∧ n ≤ 0xDFFF) then some (Char.ofNat n, 3) else none
    else if 0xF0 ≤ b ∧ b ≤ 0xF4 then do
      let c ← rest[0]? >>= continuation?
      let d ← rest[1]? >>= continuation?
      let e ← rest[2]? >>= continuation?
      let n := (((b.toNat - 0xF0) * 0x40 + c) * 0x40 + d) * 0x40 + e
      if 0x10000 ≤ n ∧ n ≤ 0x10FFFF then some (Char.ofNat n, 4) else none
    else none

/-- The text of bytes; a mark takes the place of a byte that belongs to no character. Bytes that
are already part of a character are passed over. -/
def ofByteList (mark : Text) : Nat → List UInt8 → Text
  | _, [] => []
  | skip + 1, _ :: rest => ofByteList mark skip rest
  | 0, b :: rest =>
    match firstChar? (b :: rest) with
    | some (c, size) => c :: ofByteList mark (size - 1) rest
    | none => mark ++ ofByteList mark 0 rest

/-- The text of bytes; a mark takes the place of a byte that belongs to no character. -/
def ofBytes (mark : Text) (b : Bytes) : Text :=
  match ofUtf8? b with
  | some t => t
  | none => ofByteList mark 0 b.toList

end Text

end ImageMigration
