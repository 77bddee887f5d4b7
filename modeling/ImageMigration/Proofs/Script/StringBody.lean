/-
What the body of a string denotes.

Reading goes element by element: a character stands for itself, and an escape for one code at most.
So a body is as long as its codes only when nothing in it is escaped, and a body that is written
from a value is read as that value.

* `Script.UnicodeReads`, `Script.EscapeReads`: **all the ways in which an escape can be read**;
* `Script.readElements?_cases`: one step of reading;
* `Script.readElements?_spec`: **what was read**: codes of characters or halves of pairs, at most
  one for each character, and the characters themselves where nothing is escaped;
* `Script.readBody?_quote`, `Script.readBody?_plain`: **what is written is read**;
* `Script.map_toNat_cook`: without lone surrogates a value has the codes that were read;
* `Script.units`, `Script.unitsOf`: the code units of codes and of texts.
-/
import Mathlib.Tactic.Common
import Mathlib.Data.List.Basic
import ImageMigration.Script.StringLiteral

namespace ImageMigration.Script

variable {mark c : Char} {fuel : Nat} {t rest behind value body : Text} {codes : List Nat} {n : Nat}

/-! ### Escapes -/

lemma hexDigit?_lt {v : Nat} (h : hexDigit? c = some v) : v < 16 := by
  simp only [hexDigit?] at h
  split at h
  · next hc =>
    have hle : c.toNat ≤ 57 := hc.2
    simp only [Option.some.injEq] at h
    omega
  · split at h
    · next hc =>
      have hle : c.toNat ≤ 102 := hc.2
      simp only [Option.some.injEq] at h
      omega
    · split at h
      · next hc =>
        have hle : c.toNat ≤ 70 := hc.2
        simp only [Option.some.injEq] at h
        omega
      · exact absurd h (by simp)

lemma hex4?_lt {a b c d : Char} (h : hex4? a b c d = some n) : n < 0x10000 := by
  simp only [hex4?, Option.bind_eq_bind, Option.bind_eq_some_iff, Option.some.injEq] at h
  obtain ⟨x, hx, y, hy, z, hz, w, hw, rfl⟩ := h
  have h1 := hexDigit?_lt hx
  have h2 := hexDigit?_lt hy
  have h3 := hexDigit?_lt hz
  have h4 := hexDigit?_lt hw
  omega

/-- Two hexadecimal digits name a byte. -/
lemma hexValue?_pair_lt {a b : Char} (h : hexValue? [a, b] = some n) : n < 0x100 := by
  simp only [hexValue?, List.foldlM_cons, List.foldlM_nil, Option.bind_eq_bind,
    Option.bind_eq_some_iff, Option.map_eq_some_iff, Option.pure_def, Option.some.injEq] at h
  obtain ⟨_, ⟨x, hx, rfl⟩, _, ⟨y, hy, rfl⟩, rfl⟩ := h
  have h1 := hexDigit?_lt hx
  have h2 := hexDigit?_lt hy
  omega

lemma octalDigit?_lt (h : octalDigit? c = some n) : n < 8 := by
  simp only [octalDigit?] at h
  split at h
  · next hc =>
    have hle : c.toNat ≤ 55 := hc.2
    simp only [Option.some.injEq] at h
    omega
  · exact absurd h (by simp)

/-- An octal escape takes digits only, and names a byte. -/
lemma readOctal_spec {first : Nat} (hfirst : first < 8) (t : Text) :
    ∃ read, t = read ++ (readOctal first t).2 ∧ (readOctal first t).1 < 0x100 := by
  cases t with
  | nil => exact ⟨[], rfl, by simp only [readOctal]; omega⟩
  | cons c t =>
      rw [readOctal]
      cases hc : octalDigit? c with
      | none => exact ⟨[], rfl, by simp only; omega⟩
      | some second =>
          have h2 := octalDigit?_lt hc
          simp only
          split
          · exact ⟨[c], rfl, by omega⟩
          · cases t with
            | nil => exact ⟨[c], rfl, by simp only; omega⟩
            | cons d t =>
                simp only
                cases hd : octalDigit? d with
                | none => exact ⟨[c], rfl, by simp only; omega⟩
                | some third =>
                    have h3 := octalDigit?_lt hd
                    exact ⟨[c, d], rfl, by simp only; omega⟩

/-- A code in braces is that of the digits up to the brace, and none beyond the last one. -/
lemma exists_digits_of_readBracedCode? (h : readBracedCode? t = some (n, rest)) :
    ∃ digits, t = digits ++ '\x7d' :: rest ∧ digits ≠ [] ∧ hexValue? digits = some n ∧
      n ≤ 0x10FFFF := by
  have hsplit := List.takeWhile_append_dropWhile (p := (· ≠ '\x7d')) (l := t)
  simp only [readBracedCode?] at h
  split at h
  · next brace behind hdrop =>
    split at h
    · next m hm =>
      split at h
      · exact absurd h (by simp)
      · next hok =>
        simp only [Option.some.injEq, Prod.mk.injEq] at h
        obtain ⟨rfl, rfl⟩ := h
        simp only [Bool.or_eq_true, decide_eq_true_eq, not_or, List.isEmpty_iff] at hok
        -- the walk along digits stops at a closing brace
        have hhead := List.head?_dropWhile_not (fun c : Char => decide (c ≠ '\x7d')) t
        rw [hdrop] at hsplit hhead
        have hbrace : brace = '\x7d' := by simpa using hhead
        rw [hbrace] at hsplit
        exact ⟨_, hsplit.symm, hok.1, hm, by omega⟩
    · exact absurd h (by simp)
  · exact absurd h (by simp)

/-- How a Unicode escape is read behind its letter: the text, the code, and what follows. It is a
code in braces, four digits, or two escapes whose digits name the halves of a pair. -/
inductive UnicodeReads : Text → Nat → Text → Prop where
  | braced {t rest : Text} {n : Nat} (h : readBracedCode? t = some (n, rest)) :
      UnicodeReads ('\x7b' :: t) n rest
  | unit {a b c d : Char} {n : Nat} {t : Text} (h : hex4? a b c d = some n) :
      UnicodeReads (a :: b :: c :: d :: t) n t
  | pair {a b c d e f g k : Char} {high low : Nat} {t : Text} (h : hex4? a b c d = some high)
      (h' : hex4? e f g k = some low) (hhigh : isHighSurrogate high = true)
      (hlow : isLowSurrogate low = true) :
      UnicodeReads (a :: b :: c :: d :: '\\' :: 'u' :: e :: f :: g :: k :: t)
        (0x10000 + (high - 0xD800) * 0x400 + (low - 0xDC00)) t

/-- **A Unicode escape is read in one of these ways.** -/
lemma unicodeReads (h : readUnicode? t = some (n, rest)) : UnicodeReads t n rest := by
  unfold readUnicode? at h
  split at h
  · exact .braced h
  · next a b c d inner _ =>
    split at h
    · exact absurd h (by simp)
    · next unit hunit =>
      have hone : some (unit, inner) = some (n, rest) →
          UnicodeReads (a :: b :: c :: d :: inner) n rest := by
        intro heq
        simp only [Option.some.injEq, Prod.mk.injEq] at heq
        obtain ⟨rfl, rfl⟩ := heq
        exact .unit hunit
      split at h
      · next hhigh =>
        split at h
        · split at h
          · next low hlow =>
            split at h
            · next hpair =>
              simp only [Option.some.injEq, Prod.mk.injEq] at h
              obtain ⟨rfl, rfl⟩ := h
              exact .pair hunit hlow hhigh hpair
            · exact hone h
          · exact hone h
        · exact hone h
      · exact hone h
  · exact absurd h (by simp)

/-- A Unicode escape names a code. -/
lemma readUnicode?_spec (h : readUnicode? t = some (n, rest)) :
    ∃ read, t = read ++ rest ∧ n < 0x110000 := by
  cases unicodeReads h with
  | braced hcode =>
      obtain ⟨digits, rfl, -, -, hn⟩ := exists_digits_of_readBracedCode? hcode
      exact ⟨'\x7b' :: (digits ++ ['\x7d']), by simp, by omega⟩
  | @unit a b c d _ _ hunit =>
      have hlt := hex4?_lt hunit
      exact ⟨[a, b, c, d], rfl, by omega⟩
  | @pair a b c d e f g k high low _ _ _ hhigh hlow =>
      simp only [isHighSurrogate, isLowSurrogate, Bool.and_eq_true, decide_eq_true_eq] at hhigh hlow
      exact ⟨[a, b, c, d, '\\', 'u', e, f, g, k], rfl, by omega⟩

/-- The letters that stand for control characters behind a backslash. -/
def letterEscapes : List (Char × Nat) :=
  [('n', 10), ('t', 9), ('r', 13), ('b', 8), ('v', 11), ('f', 12)]

/-- How an escape is read behind its backslash: the text, the codes, and what follows. -/
inductive EscapeReads : Text → List Nat → Text → Prop where
  | lines {t : Text} : EscapeReads ('\r' :: '\n' :: t) [] t
  | letter {c : Char} {n : Nat} {t : Text} (h : (c, n) ∈ letterEscapes) : EscapeReads (c :: t) [n] t
  | hex {a b : Char} {n : Nat} {t : Text} (h : hexValue? [a, b] = some n) :
      EscapeReads ('x' :: a :: b :: t) [n] t
  | unicode {t rest : Text} {n : Nat} (h : readUnicode? t = some (n, rest)) :
      EscapeReads ('u' :: t) [n] rest
  | line {c : Char} {t : Text} (hline : isLineTerminator c = true)
      (hnext : c = '\r' → t.head? ≠ some '\n') : EscapeReads (c :: t) [] t
  | octal {c : Char} {first : Nat} {t : Text} (hdigit : octalDigit? c = some first) :
      EscapeReads (c :: t) [(readOctal first t).1] (readOctal first t).2
  | self {c : Char} {t : Text} (hline : isLineTerminator c = false)
      (hoctal : octalDigit? c = none) (hletter : ∀ e ∈ letterEscapes, e.1 ≠ c) (hx : c ≠ 'x')
      (hu : c ≠ 'u') : EscapeReads (c :: t) [c.toNat] t

/-- **An escape is read in one of these ways.** -/
lemma escapeReads (h : readEscape? t = some (codes, rest)) : EscapeReads t codes rest := by
  have hletter : ∀ {c : Char} {m : Nat} {u : Text}, (c, m) ∈ letterEscapes →
      some ([m], u) = some (codes, rest) → EscapeReads (c :: u) codes rest := by
    intro c m u hmem heq
    simp only [Option.some.injEq, Prod.mk.injEq] at heq
    obtain ⟨rfl, rfl⟩ := heq
    exact .letter hmem
  unfold readEscape? at h
  split at h
  · exact absurd h (by simp)
  · simp only [Option.some.injEq, Prod.mk.injEq] at h
    obtain ⟨rfl, rfl⟩ := h
    exact .lines
  · exact hletter (by simp [letterEscapes]) h
  · exact hletter (by simp [letterEscapes]) h
  · exact hletter (by simp [letterEscapes]) h
  · exact hletter (by simp [letterEscapes]) h
  · exact hletter (by simp [letterEscapes]) h
  · exact hletter (by simp [letterEscapes]) h
  · split at h
    · obtain ⟨m, hm, heq⟩ := Option.map_eq_some_iff.mp h
      simp only [Prod.mk.injEq] at heq
      obtain ⟨rfl, rfl⟩ := heq
      exact .hex hm
    · exact absurd h (by simp)
  · obtain ⟨⟨m, behind⟩, hm, heq⟩ := Option.map_eq_some_iff.mp h
    simp only [Prod.mk.injEq] at heq
    obtain ⟨rfl, rfl⟩ := heq
    exact .unicode hm
  · next c u hlines hn ht hr hb hv hf hx hu =>
    split at h
    · next hline =>
      simp only [Option.some.injEq, Prod.mk.injEq] at h
      obtain ⟨rfl, rfl⟩ := h
      refine .line hline fun hcr hhead => ?_
      obtain ⟨u', rfl⟩ := List.head?_eq_some_iff.mp hhead
      exact hlines u' hcr rfl
    · next hline =>
      split at h
      · next digit hdigit =>
        simp only [Option.some.injEq, Prod.mk.injEq] at h
        obtain ⟨rfl, rfl⟩ := h
        exact .octal hdigit
      · next hoctal =>
        simp only [Option.some.injEq, Prod.mk.injEq] at h
        obtain ⟨rfl, rfl⟩ := h
        refine .self (by simpa using hline) hoctal ?_ hx hu
        simp [letterEscapes, Ne.symm hn, Ne.symm ht, Ne.symm hr, Ne.symm hb, Ne.symm hv,
          Ne.symm hf]

lemma toNat_lt (c : Char) : c.toNat < 0x110000 := by
  rcases c.valid with h | h
  · have hlt : c.toNat < 0xD800 := h
    omega
  · exact h.2

/-- **What an escape stands for**: one code at most, and it is written with one character at least
behind the backslash. -/
lemma readEscape?_spec (h : readEscape? t = some (codes, rest)) :
    ∃ read, t = read ++ rest ∧ codes.length ≤ read.length ∧ ∀ n ∈ codes, n < 0x110000 := by
  cases escapeReads h with
  | lines => exact ⟨['\r', '\n'], rfl, Nat.zero_le _, by simp⟩
  | @letter c m _ hmem =>
      have hall : ∀ e ∈ letterEscapes, e.2 < 0x110000 := by simp [letterEscapes]
      exact ⟨[c], rfl, Nat.le_refl _, by simpa using hall _ hmem⟩
  | @hex a b m _ hm =>
      have hlt := hexValue?_pair_lt hm
      exact ⟨['x', a, b], rfl, by simp, by simp only [List.mem_singleton, forall_eq]; omega⟩
  | unicode hm =>
      obtain ⟨read, rfl, hlt⟩ := readUnicode?_spec hm
      exact ⟨'u' :: read, rfl, by simp, by simpa using hlt⟩
  | @line c => exact ⟨[c], rfl, Nat.zero_le _, by simp⟩
  | @octal c first u hdigit =>
      obtain ⟨read, hread, hlt⟩ := readOctal_spec (octalDigit?_lt hdigit) u
      exact ⟨c :: read, by rw [List.cons_append, ← hread], by simp,
        by simp only [List.mem_singleton, forall_eq]; omega⟩
  | @self c => exact ⟨[c], rfl, Nat.le_refl _, by simpa using toNat_lt c⟩

/-! ### Reading -/

/-- One step of reading a body: its end, an escape, or a character that stands for itself. -/
lemma readElements?_cases (h : readElements? mark fuel t = some (codes, rest)) :
    ∃ c u m, fuel = m + 1 ∧ t = c :: u ∧
      (c = mark ∧ codes = [] ∧ rest = u ∨
        c = '\\' ∧ (∃ first behind more, readEscape? u = some (first, behind) ∧
          readElements? mark m behind = some (more, rest) ∧ codes = first ++ more) ∨
        (c ≠ mark ∧ c ≠ '\\' ∧ c ≠ '\n' ∧ c ≠ '\r') ∧
          ∃ more, readElements? mark m u = some (more, rest) ∧ codes = c.toNat :: more) := by
  cases fuel with
  | zero => exact absurd h (by simp [readElements?])
  | succ m =>
      cases t with
      | nil => exact absurd h (by simp [readElements?])
      | cons c u =>
          refine ⟨c, u, m, rfl, rfl, ?_⟩
          rw [readElements?] at h
          split at h
          · next hc =>
            simp only [Option.some.injEq, Prod.mk.injEq] at h
            exact Or.inl ⟨hc, h.1.symm, h.2.symm⟩
          · next hmark =>
            split at h
            · next hc =>
              split at h
              · exact absurd h (by simp)
              · next first behind hescape =>
                obtain ⟨⟨more, last⟩, hmore, heq⟩ := Option.map_eq_some_iff.mp h
                simp only [Prod.mk.injEq] at heq
                obtain ⟨rfl, rfl⟩ := heq
                exact Or.inr (Or.inl ⟨hc, first, behind, more, hescape, hmore, rfl⟩)
            · next hback =>
              split at h
              · exact absurd h (by simp)
              · next hline =>
                obtain ⟨⟨more, last⟩, hmore, heq⟩ := Option.map_eq_some_iff.mp h
                simp only [Prod.mk.injEq] at heq
                obtain ⟨rfl, rfl⟩ := heq
                rw [not_or] at hline
                exact Or.inr (Or.inr ⟨⟨hmark, hback, hline⟩, more, hmore, rfl⟩)

/-- Text that stands for itself between the given quotes. -/
def IsPlain (mark : Char) (t : Text) : Prop :=
  ∀ c ∈ t, c ≠ mark ∧ c ≠ '\\' ∧ c ≠ '\n' ∧ c ≠ '\r'

/-- **What was read** in front of the closing quote: codes of characters or halves of pairs, one for
each character at most. Where nothing is escaped, or each character gave its code, the characters
stand for themselves. -/
lemma readElements?_spec (h : readElements? mark fuel t = some (codes, rest)) :
    ∃ read, t = read ++ mark :: rest ∧ codes.length ≤ read.length ∧ (∀ n ∈ codes, n < 0x110000) ∧
      ('\\' ∉ read ∨ codes.length = read.length → IsPlain mark read ∧
        codes = read.map Char.toNat) := by
  induction fuel generalizing t codes with
  | zero => exact absurd h (by simp [readElements?])
  | succ fuel ih =>
      obtain ⟨c, u, m, hm, rfl, hstep⟩ := readElements?_cases h
      obtain rfl := Nat.succ.inj hm
      rcases hstep with ⟨rfl, rfl, rfl⟩ | ⟨rfl, first, behind, more, hescape, hmore, rfl⟩ |
        ⟨hplain, more, hmore, rfl⟩
      · exact ⟨[], rfl, Nat.le_refl _, by simp, fun _ => ⟨by simp [IsPlain], rfl⟩⟩
      · obtain ⟨x, rfl, hlen, hlt⟩ := readEscape?_spec hescape
        obtain ⟨read, rfl, hlen', hlt', -⟩ := ih hmore
        refine ⟨'\\' :: (x ++ read), by simp, ?_, fun n hn => ?_, fun hcase => ?_⟩
        · simp only [List.length_append, List.length_cons]
          omega
        · rcases List.mem_append.mp hn with hn | hn
          · exact hlt n hn
          · exact hlt' n hn
        · -- an escape takes more characters than it gives codes
          exfalso
          rcases hcase with hno | hsame
          · exact hno List.mem_cons_self
          · simp only [List.length_append, List.length_cons] at hsame
            omega
      · obtain ⟨read, rfl, hlen, hlt, hself⟩ := ih hmore
        refine ⟨c :: read, rfl, by simpa using hlen, fun n hn => ?_, fun hcase => ?_⟩
        · rcases List.mem_cons.mp hn with rfl | hn
          · exact toNat_lt c
          · exact hlt n hn
        · have hrest : '\\' ∉ read ∨ more.length = read.length :=
            hcase.imp (fun hno hmem => hno (List.mem_cons_of_mem _ hmem)) fun hsame => by
              simpa using hsame
          obtain ⟨hp, rfl⟩ := hself hrest
          refine ⟨fun d hd => ?_, rfl⟩
          rcases List.mem_cons.mp hd with rfl | hd
          · exact hplain
          · exact hp d hd

/-- What was read of a body with its closing quote is the body. -/
lemma readBody?_spec (h : readBody? mark (body ++ [mark]) = some (codes, [])) :
    codes.length ≤ body.length ∧ (∀ n ∈ codes, n < 0x110000) ∧
      ('\\' ∉ body ∨ codes.length = body.length → IsPlain mark body ∧
        codes = body.map Char.toNat) := by
  obtain ⟨read, hread, hspec⟩ := readElements?_spec h
  obtain rfl : body = read := List.append_cancel_right hread
  exact hspec

/-! ### Writing -/

/-- Text that stands for itself is read as it is. -/
lemma readElements?_plain (hplain : IsPlain mark value) (rest : Text)
    (hfuel : value.length < fuel) :
    readElements? mark fuel (value ++ mark :: rest) = some (value.map Char.toNat, rest) := by
  induction value generalizing fuel with
  | nil =>
      obtain ⟨m, rfl⟩ := Nat.exists_eq_add_of_lt hfuel
      simp [readElements?]
  | cons c value ih =>
      obtain ⟨m, rfl⟩ := Nat.exists_eq_add_of_lt hfuel
      obtain ⟨hmark, hback, hn, hr⟩ := hplain c List.mem_cons_self
      have hrest := @ih (value.length + 1 + m) (fun d hd => hplain d (List.mem_cons_of_mem _ hd))
        (by omega)
      rw [List.cons_append, List.length_cons, readElements?, if_neg hmark, if_neg hback,
        if_neg (by simp [hn, hr]), hrest]
      rfl

lemma readBody?_plain (hplain : IsPlain mark body) :
    readBody? mark (body ++ [mark]) = some (body.map Char.toNat, []) :=
  readElements?_plain hplain [] (by
    rw [List.length_append, List.length_singleton]
    omega)

lemma readElements?_escape {first : List Nat} (hmark : mark ≠ '\\')
    (h : readEscape? t = some (first, behind)) (m : Nat) :
    readElements? mark (m + 1) ('\\' :: t)
      = (readElements? mark m behind).map fun p => (first ++ p.1, p.2) := by
  rw [readElements?, if_neg (Ne.symm hmark), if_pos rfl, h]

/-- A character that is written for a value is read as one element. -/
lemma readElements?_quoteChar (hmark : mark ∈ ['\'', '"']) (c : Char) (m : Nat) (t : Text) :
    readElements? mark (m + 1) (quoteChar mark c ++ t)
      = (readElements? mark m t).map fun p => (c.toNat :: p.1, p.2) := by
  have hback : mark ≠ '\\' := by
    rintro rfl
    exact absurd hmark (by decide)
  have hself : readEscape? (mark :: t) = some ([mark.toNat], t) := by
    simp only [List.mem_cons, List.not_mem_nil, or_false] at hmark
    rcases hmark with rfl | rfl <;> rfl
  have hescape : ∀ (c : Char) (u : Text), readEscape? (u ++ t) = some ([c.toNat], t) →
      readElements? mark (m + 1) ('\\' :: u ++ t)
        = (readElements? mark m t).map fun p => (c.toNat :: p.1, p.2) :=
    fun c u h => readElements?_escape hback h m
  unfold quoteChar
  split
  · exact hescape '\\' ['\\'] rfl
  · exact hescape '\n' ['n'] rfl
  · exact hescape '\r' ['r'] rfl
  · exact hescape '\u2028' "u2028".toList rfl
  · exact hescape '\u2029' "u2029".toList rfl
  · next hslash hn hr _ _ =>
    split
    · next hc =>
      subst hc
      exact hescape c [c] hself
    · next hc =>
      rw [List.singleton_append, readElements?, if_neg hc, if_neg hslash, if_neg (by
        rw [not_or]
        exact ⟨hn, hr⟩)]

/-- **What is written for a value is read as the value,** whatever follows. -/
lemma readElements?_quote (hmark : mark ∈ ['\'', '"']) (value rest : Text)
    (hfuel : value.length < fuel) :
    readElements? mark fuel (value.flatMap (quoteChar mark) ++ mark :: rest)
      = some (value.map Char.toNat, rest) := by
  induction value generalizing fuel with
  | nil =>
      obtain ⟨m, rfl⟩ := Nat.exists_eq_add_of_lt hfuel
      simp [readElements?]
  | cons c value ih =>
      obtain ⟨m, rfl⟩ := Nat.exists_eq_add_of_lt hfuel
      have hrest := @ih (value.length + 1 + m) (by omega)
      rw [List.flatMap_cons, List.append_assoc, List.length_cons,
        readElements?_quoteChar hmark, hrest]
      rfl

/-- A character is written with one character at least. -/
lemma length_le_flatMap_quoteChar (mark : Char) (value : Text) :
    value.length ≤ (value.flatMap (quoteChar mark)).length := by
  induction value with
  | nil => exact Nat.le_refl _
  | cons c value ih =>
      have hone : 1 ≤ (quoteChar mark c).length := by
        unfold quoteChar
        split <;> try decide
        split <;> simp
      rw [List.flatMap_cons, List.length_append, List.length_cons]
      omega

lemma readBody?_quote (hmark : mark ∈ ['\'', '"']) (value rest : Text) :
    readBody? mark (value.flatMap (quoteChar mark) ++ mark :: rest)
      = some (value.map Char.toNat, rest) := by
  have hlen := length_le_flatMap_quoteChar mark value
  refine readElements?_quote hmark value rest ?_
  rw [List.length_append]
  omega

/-! ### Values -/

/-- A code of a character is the code of one. -/
lemma toNat_ofNat (hn : n < 0x110000) (hs : isSurrogate n = false) : (Char.ofNat n).toNat = n := by
  have hvalid : n.isValidChar := by
    simp only [isSurrogate, isHighSurrogate, isLowSurrogate, Bool.or_eq_false_iff,
      Bool.and_eq_false_iff, decide_eq_false_iff_not] at hs
    simp only [Nat.isValidChar]
    omega
  rw [Char.ofNat, dif_pos hvalid]
  rfl

/-- **Without halves of pairs, a value has the codes that were read.** -/
lemma map_toNat_cook (hlt : ∀ n ∈ codes, n < 0x110000)
    (hwhole : ∀ n ∈ codes, isSurrogate n = false) : (cook codes).map Char.toNat = codes := by
  have hno : codes.any isSurrogate = false := by
    rw [List.any_eq_false]
    intro n hn
    simp [hwhole n hn]
  rw [cook, hno, if_neg (by simp), List.map_map]
  calc codes.map (Char.toNat ∘ Char.ofNat) = codes.map id :=
        List.map_congr_left fun n hn => toNat_ofNat (hlt n hn) (hwhole n hn)
    _ = codes := List.map_id codes

/-! ### Code units -/

/-- The code units of a code: a code beyond the first 65536 takes two. -/
def codeUnits (n : Nat) : List Nat :=
  if n < 0x10000 then [n] else [0xD800 + (n - 0x10000) / 0x400, 0xDC00 + (n - 0x10000) % 0x400]

/-- The code units of a string of codes. -/
def units (codes : List Nat) : List Nat := codes.flatMap codeUnits

/-- The code units of a text. -/
def unitsOf (t : Text) : List Nat := units (t.map Char.toNat)

lemma unitsOf_append (s t : Text) : unitsOf (s ++ t) = unitsOf s ++ unitsOf t := by
  simp [unitsOf, units]

end ImageMigration.Script
