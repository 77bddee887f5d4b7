/-
The grammar of JSON, and that the reader knows all of it.

A text spells a document by one derivation: white space stands around items, members and the
tokens of a member, and nowhere else. The reader takes the longest number and stops at the quote
that ends a string, so it matters what follows: a value ends before white space, a comma or a
closing bracket.

* `IsNumber`, `IsWritten`: numbers and the bodies of strings;
* `Phrase`, `Spells`: the texts of values, of items and of members;
* `number?_append`, `stringBody?_append`: the reader takes a token and no more;
* `Spells.isRead`: **the reader finds every phrase**, whatever follows it;
* `read?_of_spells`: **a text that spells a document is read as it.**
-/
import Mathlib.Tactic.Common
import Mathlib.Data.List.Basic
import ImageMigration.Json.Reader

namespace ImageMigration.Json

/-! ### Tokens -/

/-- White space of the grammar. -/
def IsSpacing (t : Text) : Prop := ∀ c ∈ t, isSpace c = true

instance (t : Text) : Decidable (IsSpacing t) :=
  decidable_of_iff (t.all isSpace = true) List.all_eq_true

/-- Digits, at least one. -/
structure AreDigits (t : Text) : Prop where
  ne_nil : t ≠ []
  isDigit : ∀ c ∈ t, c.isDigit = true

instance (t : Text) : Decidable (AreDigits t) :=
  decidable_of_iff (t ≠ [] ∧ t.all Char.isDigit = true)
    ⟨fun h => ⟨h.1, List.all_eq_true.mp h.2⟩, fun h => ⟨h.1, List.all_eq_true.mpr h.2⟩⟩

/-- The digits in front of the point. -/
inductive IsWhole : Text → Prop
  | zero : IsWhole ['0']
  | digits {t : Text} (h : AreDigits t) (hhead : t.head? ≠ some '0') : IsWhole t

/-- The point and the digits behind it, or nothing. -/
inductive IsFraction : Text → Prop
  | none : IsFraction []
  | point {t : Text} (h : AreDigits t) : IsFraction ('.' :: t)

/-- The exponent, or nothing. -/
inductive IsExponent : Text → Prop
  | none : IsExponent []
  | unsigned {c : Char} {t : Text} (hc : c = 'e' ∨ c = 'E') (h : AreDigits t) :
      IsExponent (c :: t)
  | signed {c sign : Char} {t : Text} (hc : c = 'e' ∨ c = 'E') (hsign : sign = '+' ∨ sign = '-')
      (h : AreDigits t) : IsExponent (c :: sign :: t)

/-- A number without its sign. -/
inductive IsMagnitude : Text → Prop
  | mk {whole fraction exponent : Text} (hw : IsWhole whole) (hf : IsFraction fraction)
      (he : IsExponent exponent) : IsMagnitude (whole ++ fraction ++ exponent)

/-- A number as it may be written. -/
inductive IsNumber : Text → Prop
  | plain {t : Text} (h : IsMagnitude t) : IsNumber t
  | negative {t : Text} (h : IsMagnitude t) : IsNumber ('-' :: t)

/-- What may stand between the quotes of a string. An escaped code unit may be half a pair. -/
inductive IsWritten : Text → Prop
  | nil : IsWritten []
  | plain {c : Char} {t : Text} (hquote : c ≠ '"') (hbackslash : c ≠ '\\')
      (hcontrol : 0x20 ≤ c.toNat) (h : IsWritten t) : IsWritten (c :: t)
  | short {c : Char} {t : Text} (hc : (shortEscape? c).isSome = true) (h : IsWritten t) :
      IsWritten ('\\' :: c :: t)
  | unit {a b c d : Char} {t : Text} (hunit : (hex4? a b c d).isSome = true) (h : IsWritten t) :
      IsWritten ('\\' :: 'u' :: a :: b :: c :: d :: t)

/-! ### Phrases -/

/-- What a piece of a text can be. -/
inductive Phrase where
  | value (j : Json)
  | items (js : List Json)
  | members (ms : List (Text × Json))

/-- A name with its colon, white space allowed around it. -/
inductive IsName (name : Text) : Text → Prop
  | mk {before between behind : Text} (hb : IsSpacing before) (h : IsWritten name)
      (hc : IsSpacing between) (hd : IsSpacing behind) :
      IsName name (before ++ '"' :: (name ++ '"' :: (between ++ ':' :: behind)))

/-- **The grammar**: a text spells a value, the items of an array or the members of an object. -/
inductive Spells : Phrase → Text → Prop
  | null : Spells (.value .null) "null".toList
  | boolTrue : Spells (.value (.bool true)) "true".toList
  | boolFalse : Spells (.value (.bool false)) "false".toList
  | number {t : Text} (h : IsNumber t) : Spells (.value (.number t)) t
  | string {t : Text} (h : IsWritten t) : Spells (.value (.string t)) ('"' :: (t ++ ['"']))
  | noItems {t : Text} (h : IsSpacing t) : Spells (.value (.array [])) ('[' :: (t ++ [']']))
  | array {js : List Json} {t : Text} (h : Spells (.items js) t) :
      Spells (.value (.array js)) ('[' :: (t ++ [']']))
  | noMembers {t : Text} (h : IsSpacing t) :
      Spells (.value (.object [])) ('\x7b' :: (t ++ ['\x7d']))
  | object {ms : List (Text × Json)} {t : Text} (h : Spells (.members ms) t) :
      Spells (.value (.object ms)) ('\x7b' :: (t ++ ['\x7d']))
  | lastItem {j : Json} {before t after : Text} (hb : IsSpacing before) (h : Spells (.value j) t)
      (ha : IsSpacing after) : Spells (.items [j]) (before ++ (t ++ after))
  | item {j : Json} {js : List Json} {before t after others : Text} (hb : IsSpacing before)
      (h : Spells (.value j) t) (ha : IsSpacing after) (hs : Spells (.items js) others) :
      Spells (.items (j :: js)) (before ++ (t ++ (after ++ ',' :: others)))
  | lastMember {name : Text} {j : Json} {front t after : Text} (hn : IsName name front)
      (h : Spells (.value j) t) (ha : IsSpacing after) :
      Spells (.members [(name, j)]) (front ++ (t ++ after))
  | member {name : Text} {j : Json} {ms : List (Text × Json)} {front t after others : Text}
      (hn : IsName name front) (h : Spells (.value j) t) (ha : IsSpacing after)
      (hs : Spells (.members ms) others) :
      Spells (.members ((name, j) :: ms)) (front ++ (t ++ (after ++ ',' :: others)))

variable {t rest : Text} {c : Char} {j : Json}

/-! ### White space -/

lemma skipSpace_append {spacing : Text} (h : IsSpacing spacing) (rest : Text) :
    skipSpace (spacing ++ rest) = skipSpace rest :=
  List.dropWhile_append_of_pos h

lemma skipSpace_cons (h : isSpace c = false) (rest : Text) : skipSpace (c :: rest) = c :: rest := by
  rw [skipSpace, List.dropWhile_cons_of_neg (by simp [h])]

lemma IsSpacing.skipSpace_eq_nil (h : IsSpacing t) : skipSpace t = [] := by
  simpa [skipSpace] using skipSpace_append h []

lemma skipSpace_skipSpace (t : Text) : skipSpace (skipSpace t) = skipSpace t := by
  induction t with
  | nil => rfl
  | cons c t ih =>
      cases hc : isSpace c with
      | true => rwa [show skipSpace (c :: t) = skipSpace t from List.dropWhile_cons_of_pos hc]
      | false => rw [skipSpace_cons hc, skipSpace_cons hc]

/-! ### What may follow -/

/-- What may follow a value: nothing, white space, a comma or a closing bracket. -/
def IsBoundary (rest : Text) : Prop :=
  ∀ c ∈ rest.head?, isSpace c = true ∨ c = ',' ∨ c = ']' ∨ c = '\x7d'

/-- What may follow digits. -/
def EndsDigits (rest : Text) : Prop := ∀ c ∈ rest.head?, c.isDigit = false

lemma IsBoundary.cons (h : isSpace c = true ∨ c = ',' ∨ c = ']' ∨ c = '\x7d') :
    IsBoundary (c :: rest) := by
  intro d hd
  rw [List.head?_cons, Option.mem_some_iff] at hd
  rwa [← hd]

lemma IsBoundary.spacing_append {spacing : Text} (hs : IsSpacing spacing) (h : IsBoundary rest) :
    IsBoundary (spacing ++ rest) := by
  cases spacing with
  | nil => exact h
  | cons c spacing => exact .cons (Or.inl (hs c (by simp)))

/-- No part of a number starts with a character that may follow a value. -/
lemma IsBoundary.endsNumber (h : IsBoundary rest) (hc : c ∈ rest.head?) :
    c.isDigit = false ∧ c ≠ '.' ∧ c ≠ 'e' ∧ c ≠ 'E' := by
  have hcases := h c hc
  simp only [isSpace, Bool.or_eq_true, beq_iff_eq] at hcases
  rcases hcases with ((((rfl | rfl) | rfl) | rfl) | rfl | rfl | rfl) <;> decide

lemma EndsDigits.cons (h : c.isDigit = false) : EndsDigits (c :: rest) := by
  intro d hd
  rw [List.head?_cons, Option.mem_some_iff] at hd
  rwa [← hd]

lemma IsBoundary.endsDigits (h : IsBoundary rest) : EndsDigits rest :=
  fun _ hc => (h.endsNumber hc).1

lemma IsExponent.endsDigits_append {exponent : Text} (he : IsExponent exponent)
    (h : IsBoundary rest) : EndsDigits (exponent ++ rest) := by
  cases he with
  | none => exact h.endsDigits
  | unsigned hc => exact .cons (by rcases hc with rfl | rfl <;> decide)
  | signed hc => exact .cons (by rcases hc with rfl | rfl <;> decide)

/-! ### Reading tokens -/

/-- Digits are taken as far as they go. -/
lemma digits?_append (h : AreDigits t) (hend : EndsDigits rest) :
    digits? (t ++ rest) = some (t, rest) := by
  have htake : rest.takeWhile Char.isDigit = [] := by
    cases rest with
    | nil => rfl
    | cons c rest => exact List.takeWhile_cons_of_neg (by simp [hend c rfl])
  have hdrop : rest.dropWhile Char.isDigit = rest := by
    cases rest with
    | nil => rfl
    | cons c rest => exact List.dropWhile_cons_of_neg (by simp [hend c rfl])
  rw [digits?, List.takeWhile_append_of_pos h.isDigit, htake, List.append_nil,
    List.dropWhile_append_of_pos h.isDigit, hdrop]
  cases t with
  | nil => exact absurd rfl h.ne_nil
  | cons c t => rfl

lemma wholePart?_append (h : IsWhole t) (hend : EndsDigits rest) :
    wholePart? (t ++ rest) = some (t, rest) := by
  cases h with
  | zero =>
      cases rest with
      | nil => rfl
      | cons c rest => simp [wholePart?, hend c rfl]
  | digits h hhead =>
      rw [wholePart?]
      · exact digits?_append h hend
      · intro rest' heq
        cases t with
        | nil => exact h.ne_nil rfl
        | cons c t => exact hhead (by simpa using congrArg List.head? heq)

lemma fraction?_append (h : IsFraction t) (hend : EndsDigits rest) (hpoint : '.' ∉ rest.head?) :
    fraction? (t ++ rest) = some (t, rest) := by
  cases h with
  | none =>
      rw [List.nil_append, fraction?]
      rintro rest' rfl
      exact hpoint rfl
  | point h => rw [List.cons_append, fraction?, digits?_append h hend]; rfl

lemma exponent?_append (h : IsExponent t) (hend : IsBoundary rest) :
    exponent? (t ++ rest) = some (t, rest) := by
  cases h with
  | none =>
      cases rest with
      | nil => rfl
      | cons c rest =>
          have hc := hend.endsNumber (c := c) rfl
          simp [exponent?, hc.2.2.1, hc.2.2.2]
  | @unsigned c digits hc h =>
      have hread := digits?_append h hend.endsDigits
      obtain ⟨d, digits, rfl⟩ := List.exists_cons_of_ne_nil h.ne_nil
      have hd : ¬ (d = '+' ∨ d = '-') := by
        have := h.isDigit d (by simp)
        rintro (rfl | rfl) <;> exact absurd this (by decide)
      rw [List.cons_append] at hread
      simp only [List.cons_append, exponent?, if_pos hc, if_neg hd, hread, Option.map_some]
  | signed hc hsign h =>
      simp only [List.cons_append, exponent?, if_pos hc, if_pos hsign,
        digits?_append h hend.endsDigits, Option.map_some]

lemma magnitude?_append (h : IsMagnitude t) (hend : IsBoundary rest) :
    magnitude? (t ++ rest) = some (t, rest) := by
  obtain ⟨hw, hf, he⟩ := h
  rename_i whole fraction exponent
  have hexp : '.' ∉ (exponent ++ rest).head? := by
    cases he with
    | none => exact fun hc => (hend.endsNumber hc).2.1 rfl
    | unsigned hc => rcases hc with rfl | rfl <;> simp
    | signed hc => rcases hc with rfl | rfl <;> simp
  have hfraction : EndsDigits (fraction ++ (exponent ++ rest)) := by
    cases hf with
    | none => exact he.endsDigits_append hend
    | point h => exact .cons (by decide)
  simp only [List.append_assoc, magnitude?, wholePart?_append hw hfraction,
    fraction?_append hf (he.endsDigits_append hend) hexp, exponent?_append he hend,
    Option.bind_eq_bind, Option.bind_some]

lemma IsMagnitude.exists_cons (h : IsMagnitude t) : ∃ c t', t = c :: t' ∧ c.isDigit = true := by
  obtain ⟨hw, -, -⟩ := h
  cases hw with
  | zero => exact ⟨'0', _, rfl, by decide⟩
  | digits h =>
      obtain ⟨d, digits, rfl⟩ := List.exists_cons_of_ne_nil h.ne_nil
      exact ⟨d, _, rfl, h.isDigit d (by simp)⟩

lemma IsNumber.exists_cons (h : IsNumber t) :
    ∃ c t', t = c :: t' ∧ (c = '-' ∨ c.isDigit = true) := by
  cases h with
  | plain h =>
      obtain ⟨c, t, rfl, hc⟩ := h.exists_cons
      exact ⟨c, t, rfl, Or.inr hc⟩
  | negative => exact ⟨_, _, rfl, Or.inl rfl⟩

/-- A number is taken as far as it goes. -/
lemma number?_append (h : IsNumber t) (hend : IsBoundary rest) :
    number? (t ++ rest) = some (t, rest) := by
  cases h with
  | plain h =>
      obtain ⟨c, t, rfl, hc⟩ := h.exists_cons
      rw [List.cons_append, number?]
      · exact magnitude?_append h hend
      · intro rest' heq
        simp only [List.cons.injEq] at heq
        rw [heq.1] at hc
        exact absurd hc (by decide)
  | negative h => rw [List.cons_append, number?, magnitude?_append h hend]; rfl

/-- A string ends at its first quote that is not escaped. -/
lemma stringBody?_append (h : IsWritten t) : stringBody? (t ++ '"' :: rest) = some (t, rest) := by
  induction h with
  | nil => rfl
  | @plain c t hquote hbackslash hcontrol h ih =>
      rw [List.cons_append, stringBody?.eq_def]
      split <;> simp_all
  | @short c t hc h ih =>
      have hu : c ≠ 'u' := by
        rintro rfl
        exact absurd hc (by decide)
      simp [stringBody?, hu, hc, ih]
  | unit hunit h ih => simp [stringBody?, hunit, ih]

/-! ### Reading phrases -/

/-- No value starts with white space or a closing bracket. -/
lemma Spells.exists_cons (h : Spells (.value j) t) :
    ∃ c t', t = c :: t' ∧ isSpace c = false ∧ c ≠ ']' := by
  cases h with
  | null => exact ⟨_, _, rfl, by decide, by decide⟩
  | boolTrue => exact ⟨_, _, rfl, by decide, by decide⟩
  | boolFalse => exact ⟨_, _, rfl, by decide, by decide⟩
  | string => exact ⟨_, _, rfl, by decide, by decide⟩
  | noItems => exact ⟨_, _, rfl, by decide, by decide⟩
  | array => exact ⟨_, _, rfl, by decide, by decide⟩
  | noMembers => exact ⟨_, _, rfl, by decide, by decide⟩
  | object => exact ⟨_, _, rfl, by decide, by decide⟩
  | number h =>
      obtain ⟨c, t, rfl, hc⟩ := h.exists_cons
      refine ⟨c, t, rfl, ?_, ?_⟩
      · by_contra hspace
        simp only [isSpace, Bool.or_eq_true, beq_iff_eq, Bool.not_eq_false] at hspace
        rcases hspace with ((rfl | rfl) | rfl) | rfl <;> exact absurd hc (by decide)
      · rintro rfl
        exact absurd hc (by decide)

lemma Spells.skipSpace_append (h : Spells (.value j) t) (rest : Text) :
    skipSpace (t ++ rest) = t ++ rest := by
  obtain ⟨c, t, rfl, hc, -⟩ := h.exists_cons
  exact skipSpace_cons hc _

/-- The items of an array start with a value. -/
lemma Spells.items_head {js : List Json} (h : Spells (.items js) t) (rest : Text) :
    ∃ c t', skipSpace (t ++ rest) = c :: t' ∧ c ≠ ']' := by
  cases h with
  | lastItem hb h ha =>
      obtain ⟨c, t, rfl, hc, hbracket⟩ := h.exists_cons
      exact ⟨c, _, by rw [List.append_assoc, Json.skipSpace_append hb]; exact skipSpace_cons hc _,
        hbracket⟩
  | item hb h ha hs =>
      obtain ⟨c, t, rfl, hc, hbracket⟩ := h.exists_cons
      exact ⟨c, _, by rw [List.append_assoc, Json.skipSpace_append hb]; exact skipSpace_cons hc _,
        hbracket⟩

/-- The members of an object start with the quote of a name. -/
lemma Spells.members_head {ms : List (Text × Json)} (h : Spells (.members ms) t) (rest : Text) :
    ∃ t', skipSpace (t ++ rest) = '"' :: t' := by
  cases h with
  | lastMember hn h ha =>
      obtain ⟨hb, -, -, -⟩ := hn
      exact ⟨_, by rw [List.append_assoc, List.append_assoc, Json.skipSpace_append hb]; rfl⟩
  | member hn h ha hs =>
      obtain ⟨hb, -, -, -⟩ := hn
      exact ⟨_, by rw [List.append_assoc, List.append_assoc, Json.skipSpace_append hb]; rfl⟩

lemma value?_skipSpace (fuel : Nat) (t : Text) : value? fuel (skipSpace t) = value? fuel t := by
  cases fuel with
  | zero => rw [value?, value?]
  | succ fuel => rw [value?, value?, skipSpace_skipSpace]

lemma items?_skipSpace (fuel : Nat) (t : Text) : items? fuel (skipSpace t) = items? fuel t := by
  cases fuel with
  | zero => rw [items?, items?]
  | succ fuel => rw [items?, items?, value?_skipSpace]

lemma members?_skipSpace (fuel : Nat) (t : Text) :
    members? fuel (skipSpace t) = members? fuel t := by
  cases fuel with
  | zero => rw [members?, members?]
  | succ fuel => rw [members?, members?, skipSpace_skipSpace]

lemma value?_spacing_append {spacing : Text} (h : IsSpacing spacing) (fuel : Nat) :
    value? fuel (spacing ++ t) = value? fuel t := by
  rw [← value?_skipSpace, skipSpace_append h, value?_skipSpace]

/-- Behind a name and its colon comes a value, and behind the last value the brace. -/
lemma members?_lastMember {name front after : Text} {fuel : Nat} (h : IsName name front)
    (hread : value? fuel t = some (j, after ++ '\x7d' :: rest)) (ha : IsSpacing after) :
    members? (fuel + 1) (front ++ t) = some ([(name, j)], rest) := by
  obtain ⟨hb, hname, hc, hd⟩ := h
  rw [members?]
  simp only [List.append_assoc, List.cons_append, skipSpace_append hb,
    skipSpace_cons (show isSpace '"' = false by decide), stringBody?_append hname,
    skipSpace_append hc, skipSpace_cons (show isSpace ':' = false by decide),
    value?_spacing_append hd, hread, skipSpace_append ha,
    skipSpace_cons (show isSpace '\x7d' = false by decide)]

lemma members?_member {name front after others : Text} {ms : List (Text × Json)} {fuel : Nat}
    (h : IsName name front) (hread : value? fuel t = some (j, after ++ ',' :: others))
    (ha : IsSpacing after) (hothers : members? fuel others = some (ms, rest)) :
    members? (fuel + 1) (front ++ t) = some ((name, j) :: ms, rest) := by
  obtain ⟨hb, hname, hc, hd⟩ := h
  rw [members?]
  simp only [List.append_assoc, List.cons_append, skipSpace_append hb,
    skipSpace_cons (show isSpace '"' = false by decide), stringBody?_append hname,
    skipSpace_append hc, skipSpace_cons (show isSpace ':' = false by decide),
    value?_spacing_append hd, hread, skipSpace_append ha,
    skipSpace_cons (show isSpace ',' = false by decide), hothers, Option.map_some]

/-- That the reader finds a phrase in front of any text that may follow it. Every level of nesting
takes one unit of fuel and at least one character. -/
def Phrase.IsRead (t : Text) : Phrase → Prop
  | value j => ∀ fuel rest, t.length ≤ fuel → IsBoundary rest →
      value? fuel (t ++ rest) = some (j, rest)
  | items js => ∀ fuel rest, t.length < fuel → items? fuel (t ++ ']' :: rest) = some (js, rest)
  | members ms => ∀ fuel rest, t.length < fuel →
      members? fuel (t ++ '\x7d' :: rest) = some (ms, rest)

/-- A number is none of the other values. -/
lemma value?_number (h : IsNumber t) (fuel : Nat) (hend : IsBoundary rest) :
    value? (fuel + 1) (t ++ rest) = some (.number t, rest) := by
  rw [value?, (Spells.number h).skipSpace_append]
  have hread := number?_append h hend
  obtain ⟨c, t, rfl, hc⟩ := h.exists_cons
  split
  case h_7 => rw [hread]; rfl
  all_goals
    next heq =>
      rw [List.cons_append, List.cons.injEq] at heq
      rw [heq.1] at hc
      exact absurd hc (by decide)

/-- **The reader finds every phrase**, whatever follows it. -/
lemma Spells.isRead {phrase : Phrase} (h : Spells phrase t) : phrase.IsRead t := by
  induction h with
  | null =>
      rintro (_ | fuel) rest hfuel -
      · exact absurd hfuel (by decide)
      · rw [value?, Spells.null.skipSpace_append]; rfl
  | boolTrue =>
      rintro (_ | fuel) rest hfuel -
      · exact absurd hfuel (by decide)
      · rw [value?, Spells.boolTrue.skipSpace_append]; rfl
  | boolFalse =>
      rintro (_ | fuel) rest hfuel -
      · exact absurd hfuel (by decide)
      · rw [value?, Spells.boolFalse.skipSpace_append]; rfl
  | number h =>
      rintro (_ | fuel) rest hfuel hend
      · obtain ⟨c, t, rfl, -⟩ := h.exists_cons
        exact absurd hfuel (by simp)
      · exact value?_number h fuel hend
  | string h =>
      rintro (_ | fuel) rest hfuel -
      · exact absurd hfuel (by simp)
      · rw [value?, (Spells.string h).skipSpace_append]
        simp [stringBody?_append h]
  | noItems h =>
      rintro (_ | fuel) rest hfuel -
      · exact absurd hfuel (by simp)
      · rw [value?, (Spells.noItems h).skipSpace_append]
        simp [Json.skipSpace_append h, skipSpace_cons (c := ']') (by decide)]
  | array h ih =>
      rintro (_ | fuel) rest hfuel -
      · exact absurd hfuel (by simp)
      · have hread := ih fuel rest (by simp at hfuel; omega)
        obtain ⟨c, t', hhead, hc⟩ := h.items_head (']' :: rest)
        rw [← items?_skipSpace, hhead] at hread
        rw [value?, (Spells.array h).skipSpace_append]
        simp [hhead, hc, hread]
  | noMembers h =>
      rintro (_ | fuel) rest hfuel -
      · exact absurd hfuel (by simp)
      · rw [value?, (Spells.noMembers h).skipSpace_append]
        simp [Json.skipSpace_append h, skipSpace_cons (c := '\x7d') (by decide)]
  | object h ih =>
      rintro (_ | fuel) rest hfuel -
      · exact absurd hfuel (by simp)
      · have hread := ih fuel rest (by simp at hfuel; omega)
        obtain ⟨t', hhead⟩ := h.members_head ('\x7d' :: rest)
        rw [← members?_skipSpace, hhead] at hread
        rw [value?, (Spells.object h).skipSpace_append]
        simp [hhead, hread]
  | @lastItem j before t after hb h ha ih =>
      rintro (_ | fuel) rest hfuel
      · exact absurd hfuel (by simp)
      · have hread := ih fuel (after ++ ']' :: rest) (by simp at hfuel; omega)
          (.spacing_append ha (.cons (by simp)))
        rw [items?, List.append_assoc, List.append_assoc, value?_spacing_append hb, hread]
        simp [Json.skipSpace_append ha, skipSpace_cons (c := ']') (by decide)]
  | @item j js before t after others hb h ha hs ih ihs =>
      rintro (_ | fuel) rest hfuel
      · exact absurd hfuel (by simp)
      · have hread := ih fuel (after ++ ',' :: (others ++ ']' :: rest)) (by simp at hfuel; omega)
          (.spacing_append ha (.cons (by simp)))
        have hothers := ihs fuel rest (by simp at hfuel; omega)
        simp only [List.append_assoc, List.cons_append]
        rw [items?, value?_spacing_append hb, hread]
        simp [Json.skipSpace_append ha, skipSpace_cons (c := ',') (by decide), hothers]
  | @lastMember name j front t after hn h ha ih =>
      rintro (_ | fuel) rest hfuel
      · exact absurd hfuel (by simp)
      · have hread := ih fuel (after ++ '\x7d' :: rest) (by simp at hfuel; omega)
          (.spacing_append ha (.cons (by simp)))
        rw [List.append_assoc, List.append_assoc]
        exact members?_lastMember hn hread ha
  | @member name j ms front t after others hn h ha hs ih ihs =>
      rintro (_ | fuel) rest hfuel
      · exact absurd hfuel (by simp)
      · have hread := ih fuel (after ++ ',' :: (others ++ '\x7d' :: rest))
          (by simp at hfuel; omega) (.spacing_append ha (.cons (by simp)))
        have hothers := ihs fuel rest (by simp at hfuel; omega)
        simp only [List.append_assoc, List.cons_append]
        exact members?_member hn hread ha hothers

/-- **A text that spells a document is read as it**, white space around it being allowed. -/
theorem read?_of_spells {before after : Text} (hb : IsSpacing before) (h : Spells (.value j) t)
    (ha : IsSpacing after) : read? (before ++ (t ++ after)) = some j := by
  have hend : IsBoundary after := by
    have hnil : IsBoundary [] := fun c hc => absurd hc (by simp)
    simpa using hnil.spacing_append ha
  have hread := h.isRead (2 * (before ++ (t ++ after)).length + 1) after
    (by simp only [List.length_append]; omega) hend
  rw [read?, value?_spacing_append hb, hread]
  simp [ha.skipSpace_eq_nil]

end ImageMigration.Json
