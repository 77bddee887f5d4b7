/-
Literals that are written for values.

Between its quotes a value is written character by character, some of them behind a backslash. What
is written for one character is read as that character by the grammar, whatever comes next: no escape
that is written can be taken for a longer one, and none ends early.

* `Script.body_of_quoteChar`, `Script.body_of_quote`: the one way to read what is written;
* `Script.unitsOf_injective`: different texts have different code units;
* `Script.readToken_quote`: the lexer reads what is written as one token;
* `Script.stringLiteral_quote_iff`, `Script.stringLiteral_of_quote`: by the grammar it is a literal;
* `Script.stringLiteral_quote`: **the literal that is written for a value is one token, denotes the
  value, and is that of no other value.**
-/
import ImageMigration.Proofs.Script.StringGrammar
import ImageMigration.Script.Token

namespace ImageMigration.Script

variable {mark c : Char} {n : Nat} {t rest behind : Text} {units : List Nat}

/-! ### The one way to read what is written -/

/-- What has a meaning of its own behind a backslash starts no other escape. -/
lemma singleEscapes_apart (hmem : (c, n) ∈ singleEscapes) :
    octalDigit? c = none ∧ c ∉ ['8', '9', 'x', 'u', '\r'] ∧ isLineTerminator c = false ∧
      ∀ m, (c, m) ∈ singleEscapes → m = n := by
  simp only [singleEscapes, List.mem_cons, Prod.mk.injEq, List.not_mem_nil, or_false] at hmem
  rcases hmem with ⟨rfl, rfl⟩ | ⟨rfl, rfl⟩ | ⟨rfl, rfl⟩ | ⟨rfl, rfl⟩ | ⟨rfl, rfl⟩ | ⟨rfl, rfl⟩ |
    ⟨rfl, rfl⟩ | ⟨rfl, rfl⟩ | ⟨rfl, rfl⟩ <;>
  exact ⟨by decide, by decide, by decide, by simp [singleEscapes]⟩

lemma eq_of_escape_single (hmem : (c, n) ∈ singleEscapes) (h : Escape (c :: t) units rest) :
    units = [n] ∧ rest = t := by
  obtain ⟨hoctal, hother, hline, hone⟩ := singleEscapes_apart hmem
  simp only [List.mem_cons, List.not_mem_nil, or_false, not_or] at hother
  obtain ⟨h8, h9, hx, hu, hr⟩ := hother
  generalize hs : c :: t = s at h
  cases h with
  | single hmem' =>
      obtain ⟨rfl, rfl⟩ := List.cons.inj hs
      exact ⟨by rw [hone _ hmem'], rfl⟩
  | self hself =>
      obtain ⟨rfl, rfl⟩ := List.cons.inj hs
      exact absurd rfl (hself.not_single _ hmem)
  | octal ha | octals ha | threeOctals ha =>
      obtain ⟨rfl, -⟩ := List.cons.inj hs
      rw [hoctal] at ha
      exact absurd ha (by simp)
  | nonOctal hnine =>
      obtain ⟨rfl, -⟩ := List.cons.inj hs
      exact absurd hnine (by simp [h8, h9])
  | hex => exact absurd (List.cons.inj hs).1 hx
  | unicode | braced => exact absurd (List.cons.inj hs).1 hu
  | line hline' =>
      obtain ⟨rfl, -⟩ := List.cons.inj hs
      rw [hline] at hline'
      exact absurd hline' (by simp)
  | lines => exact absurd (List.cons.inj hs).1 hr

lemma eq_of_escape_unicode {a b d e : Char} (hn : hex4? a b d e = some n)
    (h : Escape ('u' :: a :: b :: d :: e :: t) units rest) : units = [n] ∧ rest = t := by
  generalize hs : 'u' :: a :: b :: d :: e :: t = s at h
  cases h with
  | single hmem =>
      obtain ⟨rfl, -⟩ := List.cons.inj hs
      exact absurd hmem (by simp [singleEscapes])
  | self hself => exact absurd (List.cons.inj hs).1.symm hself.not_unicode
  | octal ha | octals ha | threeOctals ha =>
      obtain ⟨rfl, -⟩ := List.cons.inj hs
      exact absurd ha (by simp [octalDigit?])
  | nonOctal hnine =>
      obtain ⟨rfl, -⟩ := List.cons.inj hs
      exact absurd hnine (by decide)
  | hex => exact absurd (List.cons.inj hs).1 (by decide)
  | unicode hn' =>
      simp only [List.cons.injEq, true_and] at hs
      obtain ⟨rfl, rfl, rfl, rfl, rfl⟩ := hs
      rw [hn, Option.some.injEq] at hn'
      exact ⟨by rw [hn'], rfl⟩
  | braced =>
      -- a brace is no hexadecimal digit
      simp only [List.cons.injEq, true_and] at hs
      rw [hs.1] at hn
      exact absurd hn (by simp [hex4?, hexDigit?])
  | line hline =>
      obtain ⟨rfl, -⟩ := List.cons.inj hs
      exact absurd hline (by decide)
  | lines => exact absurd (List.cons.inj hs).1 (by decide)

/-- **A character that is written for a value is read as that character** and nothing else. -/
lemma body_of_quoteChar (hmark : mark = '\'' ∨ mark = '"') (c : Char)
    (h : Body mark (quoteChar mark c ++ t) units rest) :
    ∃ units', units = codeUnits c.toNat ++ units' ∧ Body mark t units' rest := by
  have hback : mark ≠ '\\' := by rcases hmark with rfl | rfl <;> decide
  have hescape : ∀ {u : Text}, (∀ first inner, Escape (u ++ t) first inner →
      first = codeUnits c.toNat ∧ inner = t) → Body mark ('\\' :: u ++ t) units rest →
      ∃ units', units = codeUnits c.toNat ++ units' ∧ Body mark t units' rest := by
    intro u hone hbody
    cases hbody with
    | close => exact absurd rfl hback
    | plain _ hback' => exact absurd rfl hback'
    | escape he hbody =>
        obtain ⟨rfl, rfl⟩ := hone _ _ he
        exact ⟨_, rfl, hbody⟩
  unfold quoteChar at h
  split at h
  · exact hescape (u := ['\\']) (fun _ _ he => eq_of_escape_single (by simp [singleEscapes]) he) h
  · exact hescape (u := ['n']) (fun _ _ he => eq_of_escape_single (by simp [singleEscapes]) he) h
  · exact hescape (u := ['r']) (fun _ _ he => eq_of_escape_single (by simp [singleEscapes]) he) h
  · exact hescape (u := "u2028".toList) (fun _ _ he => eq_of_escape_unicode (by decide) he) h
  · exact hescape (u := "u2029".toList) (fun _ _ he => eq_of_escape_unicode (by decide) he) h
  · next hslash hn hr _ _ =>
    split at h
    · next hc =>
      subst hc
      refine hescape (u := [c]) (fun _ _ he => ?_) h
      rcases hmark with rfl | rfl
      · exact eq_of_escape_single (by simp [singleEscapes]) he
      · exact eq_of_escape_single (by simp [singleEscapes]) he
    · next hc =>
      rw [List.singleton_append] at h
      cases h with
      | close => exact absurd rfl hc
      | plain _ _ _ _ h => exact ⟨_, rfl, h⟩
      | escape => exact absurd rfl hslash

/-- **What is written for a value is read in one way only**, whatever follows. -/
lemma body_of_quote (hmark : mark = '\'' ∨ mark = '"') (value : Text)
    (h : Body mark (value.flatMap (quoteChar mark) ++ mark :: rest) units behind) :
    units = unitsOf value ∧ behind = rest := by
  induction value generalizing units with
  | nil =>
      cases h with
      | close => exact ⟨rfl, rfl⟩
      | plain hne => exact absurd rfl hne
      | escape => exact absurd hmark (by decide)
  | cons c value ih =>
      rw [List.flatMap_cons, List.append_assoc] at h
      obtain ⟨units', rfl, hrest⟩ := body_of_quoteChar hmark c h
      obtain ⟨rfl, rfl⟩ := ih hrest
      exact ⟨rfl, rfl⟩

/-! ### What is written -/

lemma isSurrogate_toNat (c : Char) : isSurrogate c.toNat = false := by
  simp only [isSurrogate, isHighSurrogate, isLowSurrogate, Bool.or_eq_false_iff,
    Bool.and_eq_false_iff, decide_eq_false_iff_not]
  rcases c.valid with h | h
  · have hlt : c.toNat < 0xD800 := h
    omega
  · have hlt : 0xDFFF < c.toNat := h.1
    omega

/-- The code units of a text tell its first character, and those of the rest. -/
lemma codeUnits_append_inj {d : Char} {u v : List Nat}
    (h : codeUnits c.toNat ++ u = codeUnits d.toNat ++ v) : c = d ∧ u = v := by
  have hc := isSurrogate_toNat c
  have hd := isSurrogate_toNat d
  have hltc := toNat_lt c
  have hltd := toNat_lt d
  simp only [isSurrogate, isHighSurrogate, isLowSurrogate, Bool.or_eq_false_iff,
    Bool.and_eq_false_iff, decide_eq_false_iff_not] at hc hd
  rw [← Char.toNat_inj]
  unfold codeUnits at h
  -- a single code unit is no half of a pair
  split at h <;> split at h <;> simp only [List.cons_append, List.nil_append, List.cons.injEq] at h
  · exact h
  · omega
  · omega
  · exact ⟨by omega, h.2.2⟩

lemma unitsOf_cons (c : Char) (t : Text) : unitsOf (c :: t) = codeUnits c.toNat ++ unitsOf t := rfl

lemma unitsOf_cons_ne_nil (c : Char) (t : Text) : unitsOf (c :: t) ≠ [] := by
  rw [unitsOf_cons]
  unfold codeUnits
  split <;> simp

/-- **Different texts have different code units.** -/
lemma unitsOf_injective : Function.Injective unitsOf := by
  intro s t h
  induction s generalizing t with
  | nil =>
      cases t with
      | nil => rfl
      | cons d t => exact absurd h.symm (unitsOf_cons_ne_nil d t)
  | cons c s ih =>
      cases t with
      | nil => exact absurd h (unitsOf_cons_ne_nil c s)
      | cons d t =>
          rw [unitsOf_cons, unitsOf_cons] at h
          obtain ⟨rfl, hrest⟩ := codeUnits_append_inj h
          rw [ih hrest]

/-- A text is the value of its codes. -/
lemma cook_map_toNat (t : Text) : cook (t.map Char.toNat) = t := by
  have hno : (t.map Char.toNat).any isSurrogate = false := by
    simp [List.any_map, Function.comp_def, isSurrogate_toNat]
  rw [cook, hno, if_neg (by simp), List.map_map]
  calc t.map (Char.ofNat ∘ Char.toNat) = t.map id :=
        List.map_congr_left fun c _ => Char.ofNat_toNat c
    _ = t := List.map_id t

/-- No line ends in how a character is written. -/
lemma all_quoteChar (mark d : Char) :
    (quoteChar mark d).all (fun c => !isLineTerminator c) = true := by
  unfold quoteChar
  split
  · rfl
  · rfl
  · rfl
  · rfl
  · rfl
  · next hn hr hls hps =>
    have hplain : isLineTerminator d = false := by
      simp only [isLineTerminator, Bool.or_eq_false_iff, beq_eq_false_iff_ne]
      exact ⟨⟨⟨hn, hr⟩, hls⟩, hps⟩
    have hback : isLineTerminator '\\' = false := rfl
    split <;> simp only [List.all_cons, List.all_nil, hback, hplain, Bool.not_false, Bool.and_true]

/-- No line ends in what is written, not even behind a backslash. -/
lemma not_isLineTerminator_of_mem_quote (hmark : mark = '\'' ∨ mark = '"') (value : Text) :
    ∀ c ∈ quote mark value, isLineTerminator c = false := by
  have hends : isLineTerminator mark = false := by rcases hmark with rfl | rfl <;> rfl
  intro c hc
  simp only [quote, List.cons_append, List.mem_cons, List.mem_append, List.mem_flatMap,
    List.not_mem_nil, or_false] at hc
  rcases hc with rfl | ⟨d, -, hc⟩ | rfl
  · exact hends
  · simpa using List.all_eq_true.mp (all_quoteChar mark d) c hc
  · exact hends

/-- The lexer reads what is written as one token that has the value. -/
lemma readToken_quote (hmark : mark = '\'' ∨ mark = '"') (value rest : Text) (bound start : Nat)
    (afterNewline : Bool) :
    readToken bound start afterNewline (quote mark value ++ rest)
      = ({ kind := .string, text := "", value, escaped := false, start,
           stop := start + (quote mark value).bytes, afterNewline }, rest) := by
  have hwidth : widthTo (quote mark value ++ rest) rest = (quote mark value).bytes := by
    rw [widthTo, List.length_append, Nat.add_sub_cancel, List.take_left]
  have hbody := readBody?_quote (by simpa using hmark) value rest
  have hcut : quote mark value ++ rest
      = mark :: (value.flatMap (quoteChar mark) ++ mark :: rest) := by simp [quote]
  rw [hcut] at hwidth ⊢
  rcases hmark with rfl | rfl
  · have hstart : isIdentifierStart '\'' = false := by decide
    simp [readToken, hstart, hbody, hwidth, cook_map_toNat]
  · have hstart : isIdentifierStart '"' = false := by decide
    simp [readToken, hstart, hbody, hwidth, cook_map_toNat]

/-- By the grammar, the literal that is written for a value is read as the value, whatever follows,
and not otherwise. -/
lemma stringLiteral_quote_iff (hmark : mark = '\'' ∨ mark = '"') (value rest : Text) :
    StringLiteral mark (quote mark value ++ rest) units behind ↔
      units = unitsOf value ∧ behind = rest := by
  have hcut : quote mark value ++ rest
      = mark :: (value.flatMap (quoteChar mark) ++ mark :: rest) := by simp [quote]
  rw [hcut]
  constructor
  · rintro ⟨-, hbody⟩
    exact body_of_quote hmark value hbody
  · rintro ⟨rfl, rfl⟩
    exact .quoted hmark (.of_readElements? (readBody?_quote (by simpa using hmark) value behind))

/-- On its own, the literal that is written for a value denotes the value. -/
lemma stringLiteral_of_quote (hmark : mark = '\'' ∨ mark = '"') (value : Text) :
    StringLiteral mark (quote mark value) (unitsOf value) [] := by
  simpa using (stringLiteral_quote_iff hmark value []).mpr ⟨rfl, rfl⟩

/-- **The literal that is written for a value is well-formed and denotes the value.** By the grammar
it is one token, read in one way only, whatever follows, and its code units are those of the value.
No line ends in it. The lexer reads the same token, and no other value is written so. -/
theorem stringLiteral_quote (hmark : mark = '\'' ∨ mark = '"') (value : Text) :
    (∀ rest units behind, StringLiteral mark (quote mark value ++ rest) units behind ↔
      units = unitsOf value ∧ behind = rest) ∧
      (∀ c ∈ quote mark value, isLineTerminator c = false) ∧
      (∀ rest bound start afterNewline,
        readToken bound start afterNewline (quote mark value ++ rest)
          = ({ kind := .string, text := "", value, escaped := false, start,
               stop := start + (quote mark value).bytes, afterNewline }, rest)) ∧
      ∀ value', quote mark value' = quote mark value → value' = value := by
  refine ⟨fun rest _ _ => stringLiteral_quote_iff hmark value rest,
    not_isLineTerminator_of_mem_quote hmark value,
    fun rest bound start newline => readToken_quote hmark value rest bound start newline,
    fun value' hsame => unitsOf_injective ?_⟩
  have hread : StringLiteral mark (quote mark value' ++ []) (unitsOf value') [] :=
    (stringLiteral_quote_iff hmark value' []).mpr ⟨rfl, rfl⟩
  rw [hsame] at hread
  exact ((stringLiteral_quote_iff hmark value []).mp hread).1

/-- A quote behind a backslash, an end of a line, a separator and a character of two code units, with
a digit behind the literal. -/
theorem stringLiteral_quote_of_breaks :
    let value := "it\\'s\n\u2028😀".toList
    let literal := "'it\\\\\\'s\\n\\u2028😀'".toList
    quote '\'' value = literal ∧
      StringLiteral '\'' (literal ++ ['0'])
        [105, 116, 92, 39, 115, 10, 0x2028, 0xD83D, 0xDE00] ['0'] ∧
      (readToken 0 7 false (literal ++ ['0'])).1.value = value := by
  intro value literal
  have hquote : quote '\'' value = literal := by decide +kernel
  have hunits : unitsOf value = [105, 116, 92, 39, 115, 10, 0x2028, 0xD83D, 0xDE00] := by
    decide +kernel
  obtain ⟨hgrammar, -, htoken, -⟩ := stringLiteral_quote (Or.inl rfl) value
  rw [hquote] at hgrammar htoken
  refine ⟨hquote, (hgrammar _ _ _).mpr ⟨hunits.symm, rfl⟩, ?_⟩
  rw [htoken]

end ImageMigration.Script
