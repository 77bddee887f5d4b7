/-
Strings by the grammar of ECMAScript.

The grammar tells which texts are string literals and what code units they denote, without saying
how to find that out. Whatever the reader makes of a body is a derivation in it.

* `Script.Escape`, `Script.Body`, `Script.StringLiteral`: escapes, bodies and literals of the
  grammar, each with what follows it;
* `Script.escape_of_readOctal`, `Script.escape_of_self`, `Script.body_of_readUnicode?`,
  `Script.body_of_readEscape?`: escapes that are read are those of the grammar; a pair of halves is
  two of them;
* `Script.Body.of_readElements?`: **what is read is so by the grammar.**
-/
import ImageMigration.Proofs.Script.StringBody

namespace ImageMigration.Script

/-! ### The grammar -/

/-- The characters with a meaning of their own behind a backslash, quotes and the backslash among
them, and the code units that they stand for there. -/
def singleEscapes : List (Char × Nat) :=
  [('\'', 39), ('"', 34), ('\\', 92), ('b', 8), ('f', 12), ('n', 10), ('r', 13), ('t', 9),
   ('v', 11)]

/-- A character that stands for itself behind a backslash, although it need not be written so. -/
structure IsNonEscape (c : Char) : Prop where
  not_single : ∀ e ∈ singleEscapes, e.1 ≠ c
  not_digit : c.isDigit = false
  not_hex : c ≠ 'x'
  not_unicode : c ≠ 'u'
  not_line : isLineTerminator c = false

/-- No octal digit comes next. -/
def NoOctalDigit (t : Text) : Prop := ∀ c ∈ t.head?, octalDigit? c = none

/-- An escape sequence or a continued line behind its backslash: the text, the code units that it
denotes, and what follows it in the text. -/
inductive Escape : Text → List Nat → Text → Prop where
  | single {c : Char} {n : Nat} {t : Text} (h : (c, n) ∈ singleEscapes) : Escape (c :: t) [n] t
  | self {c : Char} {t : Text} (h : IsNonEscape c) : Escape (c :: t) (codeUnits c.toNat) t
  /-- one octal digit, the null character among them -/
  | octal {a : Char} {m : Nat} {t : Text} (ha : octalDigit? a = some m) (hnext : NoOctalDigit t) :
      Escape (a :: t) [m] t
  | octals {a b : Char} {m n : Nat} {t : Text} (ha : octalDigit? a = some m)
      (hb : octalDigit? b = some n) (hnext : m ≤ 3 → NoOctalDigit t) :
      Escape (a :: b :: t) [m * 8 + n] t
  | threeOctals {a b c : Char} {m n k : Nat} {t : Text} (ha : octalDigit? a = some m)
      (hb : octalDigit? b = some n) (hc : octalDigit? c = some k) (hm : m ≤ 3) :
      Escape (a :: b :: c :: t) [(m * 8 + n) * 8 + k] t
  | nonOctal {c : Char} {t : Text} (h : c = '8' ∨ c = '9') : Escape (c :: t) [c.toNat] t
  | hex {a b : Char} {n : Nat} {t : Text} (h : hexValue? [a, b] = some n) :
      Escape ('x' :: a :: b :: t) [n] t
  | unicode {a b c d : Char} {n : Nat} {t : Text} (h : hex4? a b c d = some n) :
      Escape ('u' :: a :: b :: c :: d :: t) [n] t
  | braced {digits : Text} {n : Nat} {t : Text} (hne : digits ≠ [])
      (h : hexValue? digits = some n) (hn : n ≤ 0x10FFFF) :
      Escape ('u' :: '\x7b' :: (digits ++ '\x7d' :: t)) (codeUnits n) t
  | line {c : Char} {t : Text} (h : isLineTerminator c = true)
      (hnext : c = '\r' → t.head? ≠ some '\n') : Escape (c :: t) [] t
  | lines {t : Text} : Escape ('\r' :: '\n' :: t) [] t

/-- A body up to its closing quote: the text, the code units that it denotes, and what follows the
quote. Line and paragraph separators may stand in it as they are. -/
inductive Body (mark : Char) : Text → List Nat → Text → Prop where
  | close {t : Text} : Body mark (mark :: t) [] t
  | plain {c : Char} {t rest : Text} {units : List Nat} (hmark : c ≠ mark) (hback : c ≠ '\\')
      (hn : c ≠ '\n') (hr : c ≠ '\r') (h : Body mark t units rest) :
      Body mark (c :: t) (codeUnits c.toNat ++ units) rest
  | escape {t behind rest : Text} {first units : List Nat} (he : Escape t first behind)
      (h : Body mark behind units rest) : Body mark ('\\' :: t) (first ++ units) rest

/-- A string literal at the front of a text, in single or double quotes: the text, the code units
that the literal denotes, and what follows it. -/
inductive StringLiteral : Char → Text → List Nat → Text → Prop where
  | quoted {mark : Char} {t rest : Text} {units : List Nat} (hmark : mark = '\'' ∨ mark = '"')
      (h : Body mark t units rest) : StringLiteral mark (mark :: t) units rest

variable {mark c : Char} {fuel first n : Nat} {t rest behind : Text} {codes units : List Nat}

/-! ### Reading by the grammar -/

lemma codeUnits_of_lt (h : n < 0x10000) : codeUnits n = [n] := if_pos h

lemma units_append (codes more : List Nat) :
    Script.units (codes ++ more) = Script.units codes ++ Script.units more := by
  rw [Script.units, Script.units, Script.units, List.flatMap_append]

lemma units_singleton (n : Nat) : Script.units [n] = codeUnits n := by
  rw [Script.units, List.flatMap_cons, List.flatMap_nil, List.append_nil]

/-- Octal digits are read as far as the grammar takes them. -/
lemma escape_of_readOctal (hc : octalDigit? c = some first) (t : Text) :
    Escape (c :: t) [(readOctal first t).1] (readOctal first t).2 := by
  have hnone : ∀ {d : Char} {u : Text}, octalDigit? d = none → NoOctalDigit (d :: u) :=
    fun hd e he => by
      rw [List.head?_cons, Option.mem_def, Option.some.injEq] at he
      rwa [← he]
  have hend : NoOctalDigit [] := fun e he => absurd he (by simp)
  cases t with
  | nil => exact .octal hc hend
  | cons d t =>
      rw [readOctal]
      cases hd : octalDigit? d with
      | none => exact .octal hc (hnone hd)
      | some second =>
          simp only
          split
          · next hlarge => exact .octals hc hd fun hle => absurd hle (by omega)
          · next hsmall =>
            cases t with
            | nil => exact .octals hc hd fun _ => hend
            | cons e t =>
                simp only
                cases he : octalDigit? e with
                | none => exact .octals hc hd fun _ => hnone he
                | some third => exact .threeOctals hc hd he (by omega)

/-- A Unicode escape that was read is one of the grammar, or two of them that name the halves of a
pair. -/
lemma body_of_readUnicode? (h : readUnicode? t = some (n, rest))
    (hbody : Body mark rest units behind) :
    Body mark ('\\' :: 'u' :: t) (codeUnits n ++ units) behind := by
  cases unicodeReads h with
  | braced hcode =>
      obtain ⟨digits, rfl, hne, hvalue, hn⟩ := exists_digits_of_readBracedCode? hcode
      exact .escape (.braced hne hvalue hn) hbody
  | unit hunit =>
      rw [codeUnits_of_lt (hex4?_lt hunit)]
      exact .escape (.unicode hunit) hbody
  | @pair a b c d e f g k high low _ hunit hunit' hhigh hlow =>
      simp only [isHighSurrogate, isLowSurrogate, Bool.and_eq_true, decide_eq_true_eq] at hhigh hlow
      have hhalves : codeUnits (0x10000 + (high - 0xD800) * 0x400 + (low - 0xDC00))
          = [high, low] := by
        rw [codeUnits, if_neg (by omega)]
        simp only [List.cons.injEq, and_true]
        omega
      rw [hhalves]
      have hlater : Body mark ('\\' :: 'u' :: e :: f :: g :: k :: rest) ([low] ++ units) behind :=
        .escape (.unicode hunit') hbody
      have hboth : Body mark _ ([high] ++ ([low] ++ units)) behind :=
        .escape (.unicode hunit) hlater
      exact hboth

/-- A digit that is no octal one is eight or nine. -/
lemma eq_of_isDigit (hdigit : c.isDigit = true) (hoctal : octalDigit? c = none) :
    c = '8' ∨ c = '9' := by
  simp only [Char.isDigit, Bool.and_eq_true, decide_eq_true_eq] at hdigit
  have hlow : 48 ≤ c.toNat := hdigit.1
  have hhigh : c.toNat ≤ 57 := hdigit.2
  have hno : ¬ c.toNat ≤ 55 := by
    intro hle
    have hrange : '0' ≤ c ∧ c ≤ '7' := ⟨hdigit.1, hle⟩
    rw [octalDigit?, if_pos hrange] at hoctal
    exact absurd hoctal (by simp)
  rcases (by omega : c.toNat = 56 ∨ c.toNat = 57) with h | h
  · exact Or.inl (Char.toNat_inj.mp h)
  · exact Or.inr (Char.toNat_inj.mp h)

/-- A character that is read as itself is so by the grammar: a digit above the octal ones, a quote or
a backslash, or a character without a meaning of its own. -/
lemma escape_of_self (hline : isLineTerminator c = false) (hoctal : octalDigit? c = none)
    (hletter : ∀ e ∈ letterEscapes, e.1 ≠ c) (hx : c ≠ 'x') (hu : c ≠ 'u') :
    Escape (c :: t) (codeUnits c.toNat) t := by
  by_cases hdigit : c.isDigit = true
  · have hnine := eq_of_isDigit hdigit hoctal
    have hlt : c.toNat < 0x10000 := by rcases hnine with rfl | rfl <;> decide
    rw [codeUnits_of_lt hlt]
    exact .nonOctal hnine
  by_cases hquoted : c = '\'' ∨ c = '"' ∨ c = '\\'
  · have hlt : c.toNat < 0x10000 := by rcases hquoted with rfl | rfl | rfl <;> decide
    rw [codeUnits_of_lt hlt]
    refine .single ?_
    rcases hquoted with rfl | rfl | rfl <;> simp [singleEscapes]
  · rw [not_or, not_or] at hquoted
    refine .self ⟨?_, by simpa using hdigit, hx, hu, hline⟩
    simp only [letterEscapes, List.forall_mem_cons, List.not_mem_nil, false_imp_iff, implies_true,
      and_true] at hletter
    simp [singleEscapes, hletter, Ne.symm hquoted.1, Ne.symm hquoted.2.1, Ne.symm hquoted.2.2]

/-- **An escape that was read is one of the grammar**, with the body behind it. -/
lemma body_of_readEscape? (h : readEscape? t = some (codes, rest))
    (hbody : Body mark rest units behind) :
    Body mark ('\\' :: t) (Script.units codes ++ units) behind := by
  cases escapeReads h with
  | lines => exact .escape .lines hbody
  | letter hmem =>
      have hall : ∀ e ∈ letterEscapes, e ∈ singleEscapes ∧ e.2 < 0x10000 := by
        simp [letterEscapes, singleEscapes]
      obtain ⟨hsingle, hlt⟩ := hall _ hmem
      rw [units_singleton, codeUnits_of_lt hlt]
      exact .escape (.single hsingle) hbody
  | hex hm =>
      have hlt := hexValue?_pair_lt hm
      rw [units_singleton, codeUnits_of_lt (by omega)]
      exact .escape (.hex hm) hbody
  | unicode hm =>
      rw [units_singleton]
      exact body_of_readUnicode? hm hbody
  | line hline hnext => exact .escape (.line hline hnext) hbody
  | @octal c first u hdigit =>
      obtain ⟨-, -, hcode⟩ := readOctal_spec (octalDigit?_lt hdigit) u
      rw [units_singleton, codeUnits_of_lt (by omega)]
      exact .escape (escape_of_readOctal hdigit u) hbody
  | self hline hoctal hletter hx hu =>
      rw [units_singleton]
      exact .escape (escape_of_self hline hoctal hletter hx hu) hbody

/-- **What is read is so by the grammar.** -/
lemma Body.of_readElements? (h : readElements? mark fuel t = some (codes, rest)) :
    Body mark t (Script.units codes) rest := by
  induction fuel generalizing t codes with
  | zero => exact absurd h (by simp [readElements?])
  | succ fuel ih =>
      obtain ⟨c, u, m, hm, rfl, hstep⟩ := readElements?_cases h
      obtain rfl := Nat.succ.inj hm
      rcases hstep with ⟨rfl, rfl, rfl⟩ | ⟨rfl, first, inner, more, hescape, hmore, rfl⟩ |
        ⟨⟨hmark, hback, hn, hr⟩, more, hmore, rfl⟩
      · exact .close
      · rw [units_append]
        exact body_of_readEscape? hescape (ih hmore)
      · exact .plain hmark hback hn hr (ih hmore)

end ImageMigration.Script
