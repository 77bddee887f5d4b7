/-
What is printed can be read back.

A text is escaped character by character, so what it denotes is found character by character too.
Numbers are written without leading zeros, as the grammar wants them.

* `escapeChar_cases`: the three ways to write a character;
* `unescape?_escape`: **escaping can be undone**;
* `asNat?_ofNat`, `asText?_ofText`, `asList?_ofList`: plain values;
* `IsPrintable`, `spells_prettyAt`: **a printed document is a text of the grammar**.
-/
import ImageMigration.Json.Printer
import ImageMigration.Json.Record
import ImageMigration.Proofs.Json.Grammar

namespace ImageMigration

namespace Json

variable {t : Text} {c : Char} {j : Json} {n : Nat}

/-! ### Texts -/

lemma hexDigit?_hexDigit (h : n < 16) : hexDigit? (hexDigit n) = some n := by
  have hall : ∀ n < 16, hexDigit? (hexDigit n) = some n := by decide
  exact hall n h

/-- The three ways to write a character: a short escape, a code unit, or the character itself. -/
lemma escapeChar_cases (c : Char) :
    (∃ e, escapeChar c = ['\\', e] ∧ shortEscape? e = some c) ∨
      (∃ high low, escapeChar c = ['\\', 'u', '0', '0', high, low] ∧
        hex4? '0' '0' high low = some c.toNat ∧ c.toNat < 0x20) ∨
      (escapeChar c = [c] ∧ c ≠ '"' ∧ c ≠ '\\' ∧ 0x20 ≤ c.toNat) := by
  unfold escapeChar
  split
  all_goals first | exact Or.inl ⟨_, rfl, rfl⟩ | skip
  next hquote hbackslash _ _ _ _ _ =>
  split
  · next hlt =>
    refine Or.inr (Or.inl ⟨_, _, rfl, ?_, hlt⟩)
    have hzero : hexDigit? '0' = some 0 := by decide
    simp only [hex4?, hzero, hexDigit?_hexDigit (show c.toNat / 16 < 16 by omega),
      hexDigit?_hexDigit (show c.toNat % 16 < 16 by omega), Option.bind_eq_bind, Option.bind_some,
      Option.some.injEq]
    omega
  · next hge => exact Or.inr (Or.inr ⟨rfl, hquote, hbackslash, by omega⟩)

lemma escape_cons (c : Char) (t : Text) : escape (c :: t) = escapeChar c ++ escape t :=
  List.flatMap_cons

/-- An escaped text may stand between quotes. -/
lemma isWritten_escape (t : Text) : IsWritten (escape t) := by
  induction t with
  | nil => exact .nil
  | cons c t ih =>
      rw [escape_cons]
      rcases escapeChar_cases c with ⟨e, hc, he⟩ | ⟨high, low, hc, hunit, -⟩ | ⟨hc, hq, hb, hlow⟩
      · rw [hc]
        exact .short (by rw [he]; rfl) ih
      · rw [hc]
        exact .unit (by rw [hunit]; rfl) ih
      · rw [hc]
        exact .plain hq hb hlow ih

/-- **Escaping can be undone.** -/
theorem unescape?_escape (t : Text) : unescape? (escape t) = some t := by
  induction t with
  | nil => rfl
  | cons c t ih =>
      rw [escape_cons]
      rcases escapeChar_cases c with ⟨e, hc, he⟩ | ⟨high, low, hc, hunit, hlow⟩ | ⟨hc, hq, hb, -⟩
      · have hu : e ≠ 'u' := by
          rintro rfl
          exact absurd he (by simp [shortEscape?])
        rw [hc]
        simp only [List.cons_append, List.nil_append]
        rw [unescape?]
        · simp only [he]
          rw [ih, Option.map_some]
        · exact fun _ _ _ _ _ heq => absurd heq hu
      · have hhigh : isHighSurrogate c.toNat = false := by
          simp only [isHighSurrogate, Bool.and_eq_false_iff, decide_eq_false_iff_not]
          omega
        have hlowSurrogate : isLowSurrogate c.toNat = false := by
          simp only [isLowSurrogate, Bool.and_eq_false_iff, decide_eq_false_iff_not]
          omega
        rw [hc]
        simp only [List.cons_append, List.nil_append, unescape?, hunit, hhigh, hlowSurrogate, ih,
          Bool.false_eq_true, if_false, Option.map_some, Char.ofNat_toNat]
      · rw [hc]
        simp only [List.cons_append, List.nil_append]
        rw [unescape?, ih, Option.map_some]
        all_goals simp [hb]

/-! ### Numbers -/

/-- Digits do not start with a zero, zero itself excepted. -/
lemma head?_toDigits (hn : 0 < n) : (Nat.toDigits 10 n).head? ≠ some '0' := by
  induction n using Nat.strongRecOn with
  | ind n ih =>
      rcases Nat.lt_or_ge n 10 with hlt | hge
      · rw [Nat.toDigits_of_lt_base hlt]
        simp only [List.head?_cons, ne_eq, Option.some.injEq, Nat.digitChar_eq_zero]
        omega
      · rw [Nat.toDigits_of_base_le (by decide) hge,
          List.head?_append_of_ne_nil _ Nat.toDigits_ne_nil]
        exact ih (n / 10) (by omega) (by omega)

lemma areDigits_ofNat (n : Nat) : AreDigits (Text.ofNat n) :=
  ⟨Nat.toDigits_ne_nil, fun _ hc => Nat.isDigit_of_mem_toDigits (by decide) (by decide) hc⟩

lemma isNumber_ofNat (n : Nat) : IsNumber (Text.ofNat n) := by
  have hwhole : IsWhole (Text.ofNat n) := by
    rcases Nat.eq_zero_or_pos n with rfl | hn
    · exact .zero
    · exact .digits (areDigits_ofNat n) (head?_toDigits hn)
  simpa using IsNumber.plain (.mk hwhole .none .none)

lemma natOfDigits_ofNat (n : Nat) : natOfDigits (Text.ofNat n) = n :=
  Nat.ofDigitChars_ten_toDigits

/-! ### Plain values -/

lemma asNat?_ofNat {bound : Nat} (h : n ≤ bound) : (ofNat n).asNat? bound = some n := by
  have hdigits : (Text.ofNat n).all Char.isDigit = true :=
    List.all_eq_true.mpr (areDigits_ofNat n).isDigit
  simp [asNat?, ofNat, hdigits, natOfDigits_ofNat, h]

lemma asText?_ofText (t : Text) : (ofText t).asText? = some t := unescape?_escape t

/-- A list is read back item by item. -/
lemma asList?_ofList {α : Type} {read : Json → Option α} {write : α → Json} {items : List α}
    (h : ∀ a ∈ items, read (write a) = some a) :
    (ofList write items).asList? read = some items := by
  rw [ofList, asList?]
  induction items with
  | nil => rfl
  | cons a items ih =>
      rw [List.map_cons, List.mapM_cons, h a (by simp), ih fun b hb => h b (by simp [hb])]
      rfl

/-! ### Documents -/

/-- A document that has a text: its numbers and strings are those of the grammar. -/
inductive IsPrintable : Json → Prop
  | null : IsPrintable .null
  | bool (b : Bool) : IsPrintable (.bool b)
  | number {literal : Text} (h : IsNumber literal) : IsPrintable (.number literal)
  | string {written : Text} (h : IsWritten written) : IsPrintable (.string written)
  | array {items : List Json} (h : ∀ j ∈ items, IsPrintable j) : IsPrintable (.array items)
  | object {members : List (Text × Json)} (hn : ∀ m ∈ members, IsWritten m.1)
      (hv : ∀ m ∈ members, IsPrintable m.2) : IsPrintable (.object members)

lemma isPrintable_ofText (t : Text) : IsPrintable (ofText t) := .string (isWritten_escape t)

lemma isPrintable_ofNat (n : Nat) : IsPrintable (ofNat n) := .number (isNumber_ofNat n)

lemma isPrintable_ofList {α : Type} {write : α → Json} (h : ∀ a, IsPrintable (write a))
    (items : List α) : IsPrintable (ofList write items) := by
  refine .array fun j hj => ?_
  obtain ⟨a, -, rfl⟩ := List.mem_map.mp hj
  exact h a

/-- A record is printed if the values of its fields are. -/
lemma isPrintable_record {fields : List (Text × Json)} (h : ∀ field ∈ fields, field.2.IsPrintable) :
    IsPrintable (.object (fields.map fun field => (escape field.1, field.2))) := by
  refine .object (fun m hm => ?_) fun m hm => ?_ <;>
    obtain ⟨field, hfield, rfl⟩ := List.mem_map.mp hm
  · exact isWritten_escape field.1
  · exact h field hfield

lemma isSpacing_newline (level : Nat) : IsSpacing (newline level) := by
  intro c hc
  rcases List.mem_cons.mp hc with rfl | hc
  · decide
  · rw [List.eq_of_mem_replicate hc]
    decide

lemma isSpacing_nil : IsSpacing [] := fun c hc => absurd hc (by simp)

/-- The items behind the first one, each on its line. -/
lemma spells_prettyItems {level : Nat} {items : List Json} {before after : Text}
    (hitems : ∀ j ∈ items, Spells (.value j) (prettyAt level j)) (hb : IsSpacing before)
    (h : Spells (.value j) t) (ha : IsSpacing after) :
    Spells (.items (j :: items)) (before ++ (t ++ (prettyItems level items ++ after))) := by
  induction items generalizing before j t with
  | nil => exact .lastItem hb h ha
  | cons j' items ih =>
      have hothers := ih (fun j hj => hitems j (by simp [hj])) (isSpacing_newline level)
        (hitems j' (by simp))
      simpa [prettyItems] using Spells.item hb h isSpacing_nil hothers

/-- The name in front of a value. -/
lemma isName_memberName {name before : Text} (hb : IsSpacing before) (hn : IsWritten name) :
    IsName name (before ++ (memberName name ++ [' '])) := by
  have hspace : IsSpacing [' '] := fun c hc => by rw [List.mem_singleton.mp hc]; decide
  simpa [memberName] using IsName.mk hb hn isSpacing_nil hspace

/-- The members behind the first one, each on its line. -/
lemma spells_prettyMembers {level : Nat} {members : List (Text × Json)} {name before after : Text}
    (hnames : ∀ m ∈ members, IsWritten m.1)
    (hvalues : ∀ m ∈ members, Spells (.value m.2) (prettyAt level m.2)) (hb : IsSpacing before)
    (hn : IsWritten name) (h : Spells (.value j) t) (ha : IsSpacing after) :
    Spells (.members ((name, j) :: members))
      (before ++ (memberName name ++ [' ']) ++ (t ++ (prettyMembers level members ++ after))) := by
  induction members generalizing before name j t with
  | nil => exact .lastMember (isName_memberName hb hn) h ha
  | cons m members ih =>
      have hothers := ih (fun m' hm => hnames m' (by simp [hm]))
        (fun m' hm => hvalues m' (by simp [hm])) (isSpacing_newline level) (hnames m (by simp))
        (hvalues m (by simp))
      simpa [prettyMembers] using Spells.member (isName_memberName hb hn) h isSpacing_nil hothers

/-- **A printed document is a text of the grammar.** -/
lemma spells_prettyAt (h : IsPrintable j) (level : Nat) : Spells (.value j) (j.prettyAt level) := by
  induction h generalizing level with
  | null => rw [prettyAt]; exact .null
  | bool b =>
      rw [prettyAt]
      cases b with
      | true => exact .boolTrue
      | false => exact .boolFalse
  | number h => rw [prettyAt]; exact .number h
  | string h => rw [prettyAt]; exact .string h
  | @array items h ih =>
      cases items with
      | nil => rw [prettyAt]; exact .noItems isSpacing_nil
      | cons j items =>
          have hspells := spells_prettyItems
            (fun j hj => ih j (List.mem_cons_of_mem _ hj) (level + 1))
            (isSpacing_newline (level + 1)) (ih j (by simp) (level + 1)) (isSpacing_newline level)
          simpa [prettyAt] using Spells.array hspells
  | @object members hn hv ih =>
      cases members with
      | nil => rw [prettyAt]; exact .noMembers isSpacing_nil
      | cons m members =>
          have hspells := spells_prettyMembers (fun m hm => hn m (List.mem_cons_of_mem _ hm))
            (fun m hm => ih m (List.mem_cons_of_mem _ hm) (level + 1))
            (isSpacing_newline (level + 1)) (hn m (by simp)) (ih m (by simp) (level + 1))
            (isSpacing_newline level)
          simpa [prettyAt] using Spells.object hspells

/-- **What is printed is read as it was.** -/
theorem read?_pretty (h : IsPrintable j) : read? j.pretty = some j := by
  simpa [pretty] using read?_of_spells isSpacing_nil (spells_prettyAt h 0) isSpacing_nil

end Json

end ImageMigration
