/-
What can be kept while a record is read.

* `membersHeld_iff`: the members of an object, one by one;
* `isHeld_ofText`, `isHeld_ofNat`: **texts and counts can be kept.**
-/
import Mathlib.Data.List.TakeWhile
import ImageMigration.Json.Held
import ImageMigration.Proofs.Json.Printed

namespace ImageMigration.Json

variable {levels n : Nat} {members : List (Text × Json)}

/-- The members of an object can be kept if their names are texts and their values can be kept. -/
lemma membersHeld_iff :
    membersHeld levels members = true ↔
      ∀ m ∈ members, (unescape? m.1).isSome = true ∧ isHeld levels m.2 = true := by
  induction members with
  | nil => simp [membersHeld]
  | cons m members ih => simp [membersHeld, ih]

/-- A number of up to 308 digits fits. -/
lemma fitsDouble_ofNat (h : (Text.ofNat n).length ≤ 308) : fitsDouble (Text.ofNat n) = true := by
  have hdigits := (areDigits_ofNat n).isDigit
  have hne : ∀ c ∈ Text.ofNat n, c ≠ '-' ∧ c ≠ 'e' ∧ c ≠ 'E' ∧ c ≠ '.' := by
    intro c hc
    have hdigit := hdigits c hc
    refine ⟨?_, ?_, ?_, ?_⟩ <;> rintro rfl <;> exact absurd hdigit (by decide)
  have hmagnitude : (Text.ofNat n).dropWhile (· == '-') = Text.ofNat n := by
    cases ht : Text.ofNat n with
    | nil => rfl
    | cons c t =>
        rw [ht] at hne
        exact List.dropWhile_cons_of_neg (by simpa using (hne c List.mem_cons_self).1)
  have hmantissa : (Text.ofNat n).takeWhile (fun c => c != 'e' && c != 'E') = Text.ofNat n :=
    List.takeWhile_eq_self_iff.mpr fun c hc => by simp [(hne c hc).2.1, (hne c hc).2.2.1]
  have hwhole : (Text.ofNat n).takeWhile (· != '.') = Text.ofNat n :=
    List.takeWhile_eq_self_iff.mpr fun c hc => by simp [(hne c hc).2.2.2]
  have hbehind : (Text.ofNat n).drop ((Text.ofNat n).length + 1) = [] :=
    List.drop_eq_nil_of_le (Nat.le_succ _)
  have hsize : ((Text.ofNat n).dropWhile (· == '0')).length ≤ 308 :=
    Nat.le_trans (List.dropWhile_sublist _).length_le h
  simp only [fitsDouble, hmagnitude, hmantissa, hwhole, hbehind, exponentOf, List.append_nil]
  simp [natOfDigits, hsize]

lemma isHeld_ofText (levels : Nat) (t : Text) : isHeld levels (ofText t) = true := by
  rw [ofText, isHeld, unescape?_escape]
  rfl

/-- A count can be kept. -/
lemma isHeld_ofNat (levels : Nat) (h : n < 1 <<< 64) : isHeld levels (ofNat n) = true := by
  have hlength : (Text.ofNat n).length ≤ 20 :=
    (Nat.length_toDigits_le_iff (by decide) (by decide)).mpr (Nat.lt_of_lt_of_le h (by decide))
  rw [ofNat, isHeld]
  exact fitsDouble_ofNat (Nat.le_trans hlength (by decide))

end ImageMigration.Json
