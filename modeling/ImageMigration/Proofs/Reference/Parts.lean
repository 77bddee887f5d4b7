/-
Values, taken apart at their tokens.

A value is a row of parts, its tokens and the gaps between them. A token may be spelled with another
word behind one of its points: the value that is written so falls into the same parts, and starts as
before. What carries this is that a word of letters holds nothing that values are cut at, and makes
no descriptor behind a point.

* `Text.IsLetters`, `Respells`: the words, and the texts that differ in one of them;
* `Reference.Part`, `Reference.parts`, `Reference.written`: values as rows of parts;
* `Reference.written_parts`, `Reference.tokensAt_parts`: the parts make up the value, and hold its
  tokens;
* `Reference.parts_respell`: **spelled anew, a value falls into the same parts**;
* `Reference.startsWith_respell`: and starts with the same marks.
-/
import ImageMigration.Proofs.Reference.Extension
import ImageMigration.Proofs.Text.Words

namespace ImageMigration

/-! ### Letters -/

/-- A word of the letters A to Z, in any case. -/
structure Text.IsLetters (t : Text) : Prop where
  ne_nil : t ≠ []
  letters : ∀ c ∈ t, c.isAlpha = true

section Letters

variable {c : Char}

lemma toNat_of_isAlpha (h : c.isAlpha = true) :
    65 ≤ c.toNat ∧ c.toNat ≤ 90 ∨ 97 ≤ c.toNat ∧ c.toNat ≤ 122 := by
  have hcase : (c.isUpper || c.isLower) = true := h
  rcases Bool.or_eq_true_iff.mp hcase with hupper | hlower
  · exact Or.inl (of_decide_eq_true hupper)
  · exact Or.inr ((Bool.and_eq_true_iff.mp hlower).imp of_decide_eq_true of_decide_eq_true)

lemma isBlank_of_isAlpha (h : c.isAlpha = true) : isBlank c = false := by
  have hrange := toNat_of_isAlpha h
  by_contra hblank
  rw [Bool.not_eq_false] at hblank
  simp only [isBlank, Bool.or_eq_true, Bool.and_eq_true, decide_eq_true_eq, beq_iff_eq] at hblank
  omega

lemma isDecimalDigit_of_isAlpha (h : c.isAlpha = true) : isDecimalDigit c = false := by
  have hrange := toNat_of_isAlpha h
  have hzeros : ∀ z ∈ digitZeros, z = 48 ∨ 1632 ≤ z := by decide
  rw [isDecimalDigit, List.any_eq_false]
  intro z hz
  have hfar := hzeros z hz
  rw [Bool.and_eq_true, decide_eq_true_eq, decide_eq_true_eq]
  omega

end Letters

/-! ### Other spellings -/

/-- The second text is the first one, or has another word of letters behind one of its points. -/
def Respells (t t' : Text) : Prop :=
  t' = t ∨ ∃ stem x e rest : Text, x.IsLetters ∧ e.IsLetters ∧
    t = stem ++ '.' :: x ++ rest ∧ t' = stem ++ '.' :: e ++ rest

namespace Respells

variable {t t' : Text}

lemma refl (t : Text) : Respells t t := Or.inl rfl

lemma symm (h : Respells t t') : Respells t' t := by
  rcases h with rfl | ⟨stem, x, e, rest, hx, he, ht, ht'⟩
  · exact refl t'
  · exact Or.inr ⟨stem, e, x, rest, he, hx, ht', ht⟩

/-- What holds of all characters of a text, of points and of letters, holds of all characters. -/
lemma forall_mem {P : Char → Prop} (h : Respells t t') (hpoint : P '.')
    (hletter : ∀ c : Char, c.isAlpha = true → P c) (ht : ∀ c ∈ t, P c) : ∀ c ∈ t', P c := by
  rcases h with rfl | ⟨stem, x, e, rest, -, he, rfl, rfl⟩
  · exact ht
  · intro c hc
    simp only [List.mem_append, List.mem_cons] at hc ht
    rcases hc with (hc | rfl | hc) | hc
    · exact ht c (Or.inl (Or.inl hc))
    · exact hpoint
    · exact hletter c (he.letters c hc)
    · exact ht c (Or.inr hc)

lemma ne_nil (h : Respells t t') (ht : t ≠ []) : t' ≠ [] := by
  rcases h with rfl | ⟨stem, x, e, rest, -, -, rfl, rfl⟩
  · exact ht
  · simp

lemma append_right (h : Respells t t') (u : Text) : Respells (t ++ u) (t' ++ u) := by
  rcases h with rfl | ⟨stem, x, e, rest, hx, he, rfl, rfl⟩
  · exact refl _
  · exact Or.inr ⟨stem, x, e, rest ++ u, hx, he, by simp, by simp⟩

lemma mem_comma_iff (h : Respells t t') : ',' ∈ t' ↔ ',' ∈ t := by
  have hcomma : ∀ c : Char, c.isAlpha = true → c ≠ ',' := by
    rintro c hc rfl
    exact absurd hc (by decide)
  have hkeep : ∀ {u u' : Text}, Respells u u' → ',' ∉ u → ',' ∉ u' := fun hu hno hmem =>
    hu.forall_mem (P := (· ≠ ',')) (by decide) hcomma (fun c hc heq => hno (heq ▸ hc)) ',' hmem rfl
  exact not_iff_not.mp ⟨hkeep h.symm, hkeep h⟩

lemma isWord (h : Respells t t') (ht : t.IsWord) : t'.IsWord :=
  ⟨h.ne_nil ht.ne_nil, h.forall_mem (by decide) (fun _ => isBlank_of_isAlpha) ht.no_blank⟩

lemma isTrimmed (h : Respells t t') (ht : t.IsTrimmed) : t'.IsTrimmed := by
  rcases h with rfl | ⟨stem, x, e, rest, hx, he, rfl, rfl⟩
  · exact ht
  have hpoint : isBlank '.' = false := by decide
  refine ⟨by simp, fun c hc => ?_, fun c hc => ?_⟩
  · cases stem with
    | nil => exact Option.some.inj hc ▸ hpoint
    | cons d stem => exact ht.starts c hc
  · rcases List.eq_nil_or_concat' rest with rfl | ⟨rest, d, rfl⟩
    · obtain ⟨front, last, rfl⟩ := (List.eq_nil_or_concat' e).resolve_left he.ne_nil
      rw [List.append_nil, ← List.cons_append, ← List.append_assoc, List.getLast?_concat,
        Option.mem_def, Option.some.injEq] at hc
      exact isBlank_of_isAlpha (he.letters c (by simp [hc]))
    · refine ht.ends c ?_
      rw [← List.append_assoc, List.getLast?_concat] at hc ⊢
      exact hc

end Respells

namespace Reference

/-! ### Descriptors -/

/-- A descriptor is a number, with a fraction or without, and its unit. -/
lemma exists_of_isDescriptor {word : Text} (h : isDescriptor word = true) :
    ∃ digits unit : Text, (∀ c ∈ digits, isDecimalDigit c = true) ∧
      (unit = ['w'] ∨ unit = ['x']) ∧
      (word = digits ++ unit ∨ ∃ fraction : Text, fraction ≠ [] ∧
        (∀ c ∈ fraction, isDecimalDigit c = true) ∧ word = digits ++ '.' :: (fraction ++ unit)) := by
  have hunit : ∀ {t : Text}, (t == ['w'] || t == ['x']) = true → t = ['w'] ∨ t = ['x'] := by
    intro t ht
    rwa [Bool.or_eq_true, beq_iff_eq, beq_iff_eq] at ht
  have hdigits : ∀ {t rest : Text}, afterDigits? t = some rest →
      ∃ digits : Text, digits ≠ [] ∧ (∀ c ∈ digits, isDecimalDigit c = true) ∧
        t = digits ++ rest := by
    intro t rest ht
    rw [afterDigits?] at ht
    split at ht
    · exact absurd ht (by simp)
    · next hne =>
      rw [Option.some.injEq] at ht
      exact ⟨_, by simpa using hne, fun c hc => List.mem_takeWhile_imp hc, by
        rw [← ht, List.takeWhile_append_dropWhile]⟩
  simp only [isDescriptor] at h
  split at h
  · exact absurd h (by simp)
  · next rest hword =>
    rw [Option.any_eq_true] at h
    obtain ⟨unit, hrest, hend⟩ := h
    obtain ⟨digits, -, hall, rfl⟩ := hdigits hword
    obtain ⟨fraction, hne, hall', rfl⟩ := hdigits hrest
    exact ⟨digits, unit, hall, hunit hend, Or.inr ⟨fraction, hne, hall', rfl⟩⟩
  · next rest _ hword =>
    obtain ⟨digits, -, hall, rfl⟩ := hdigits hword
    exact ⟨digits, rest, hall, hunit h, Or.inl rfl⟩

/-- Behind a point of a descriptor stands no letter. -/
lemma isDescriptor_letter {front back : Text} {c : Char} (hc : c.isAlpha = true) :
    isDescriptor (front ++ '.' :: c :: back) = false := by
  by_contra h
  rw [Bool.not_eq_false] at h
  obtain ⟨digits, unit, hdigits, hunits, hword⟩ := exists_of_isDescriptor h
  have hunit : '.' ∉ unit := by rcases hunits with rfl | rfl <;> simp
  have hno : ∀ {t : Text}, (∀ c ∈ t, isDecimalDigit c = true) → '.' ∉ t := fun ht hmem =>
    absurd (ht _ hmem) (by decide)
  have hpoint : ∀ t : Text, '.' ∈ front ++ '.' :: t := by simp
  rcases hword with hword | ⟨fraction, hne, hfraction, hword⟩
  · have hmem : '.' ∈ digits ++ unit := by
      rw [← hword]
      simp
    exact (List.mem_append.mp hmem).elim (hno hdigits) hunit
  · -- the only point is the one in front of the fraction
    have hbehind : '.' ∉ fraction ++ unit := by simp [hno hfraction, hunit]
    obtain ⟨-, hrest⟩ := Text.eq_of_append_sep_eq (hno hdigits) hbehind hword
    obtain ⟨d, fraction, rfl⟩ := List.exists_cons_of_ne_nil hne
    rw [List.cons_append, List.cons.injEq] at hrest
    have hd := hfraction d (by simp)
    rw [← hrest.1, isDecimalDigit_of_isAlpha hc] at hd
    exact absurd hd (by simp)

/-! ### Entries of source sets -/

/-- The first word of a trimmed value, if a descriptor is all that follows. -/
def entryWord? (trimmed : Text) : Option Text :=
  match trimmed.firstWord?, trimmed.afterFirstWord.firstWord? with
  | some word, some descriptor =>
    if trimmed.afterFirstWord.afterFirstWord.isBlankText && isDescriptor descriptor then some word
    else none
  | _, _ => none

/-- A word, a descriptor, and white space. -/
structure IsEntry (t word gap descriptor tail : Text) : Prop where
  eq : t = word ++ (gap ++ (descriptor ++ tail))
  word_isWord : word.IsWord
  gap_ne_nil : gap ≠ []
  gap_isBlank : gap.isBlankText = true
  descriptor_isWord : descriptor.IsWord
  isDescriptor : isDescriptor descriptor = true
  tail_isBlank : tail.isBlankText = true

variable {t t' word gap descriptor tail rest x : Text}

lemma head?_isBlank (h : t.isBlankText = true) : ∀ c ∈ t.head?, isBlank c = true :=
  fun c hc => Text.isBlankText_iff.mp h c (List.mem_of_mem_head? hc)

lemma ne_point_of_isBlank {c : Char} (hc : isBlank c = true) : c ≠ '.' := by
  rintro rfl
  exact absurd hc (by decide)

/-- A point with letters behind it stands behind a word or in it. -/
lemma point_behind_or_in {stem back : Text} (hx : x.IsLetters)
    (hrest : ∀ c ∈ rest.head?, isBlank c = true) (h : word ++ rest = stem ++ '.' :: x ++ back) :
    (∃ m, stem = word ++ m ∧ rest = m ++ '.' :: x ++ back) ∨
      ∃ m, word = stem ++ '.' :: x ++ m ∧ back = m ++ rest := by
  rcases List.append_eq_append_iff.mp h with ⟨m, hm, hr⟩ | ⟨m, hm, hr⟩
  · rcases List.append_eq_append_iff.mp hm.symm with ⟨k, hk, hend⟩ | ⟨k, hk, hend⟩
    · exact Or.inl ⟨k, hk, by rw [hr, hend]⟩
    · cases m with
      | nil => exact Or.inr ⟨[], by rw [hm]; simp, by simpa using hr.symm⟩
      | cons c m =>
          -- the word would end in front of the point or of a letter
          exfalso
          have hc : isBlank c = true := hrest c (by rw [hr]; rfl)
          have hmem : c ∈ '.' :: x := by
            rw [hend]
            simp
          rcases List.mem_cons.mp hmem with rfl | hmem
          · exact absurd hc (by decide)
          · rw [isBlank_of_isAlpha (hx.letters c hmem)] at hc
            exact absurd hc (by simp)
  · exact Or.inr ⟨m, hm, hr⟩

/-- A point stands behind white space. -/
lemma point_behind_blank {stem back : Text} (hgap : gap.isBlankText = true)
    (h : gap ++ rest = stem ++ '.' :: back) : ∃ m, stem = gap ++ m ∧ rest = m ++ '.' :: back := by
  rcases List.append_eq_append_iff.mp h with ⟨m, hm, hr⟩ | ⟨m, hm, hr⟩
  · exact ⟨m, hm, hr⟩
  · cases m with
    | nil => exact ⟨[], by simpa using hm.symm, by simpa using hr.symm⟩
    | cons c m =>
        rw [List.cons_append, List.cons.injEq] at hr
        have hc := Text.isBlankText_iff.mp hgap c (by rw [hm]; simp)
        exact absurd hr.1.symm (ne_point_of_isBlank hc)

namespace IsEntry

lemma head?_rest (h : IsEntry t word gap descriptor tail) :
    ∀ c ∈ (gap ++ (descriptor ++ tail)).head?, isBlank c = true := by
  rw [Text.head?_append_left h.gap_ne_nil]
  exact head?_isBlank h.gap_isBlank

lemma entryWord?_eq (h : IsEntry t word gap descriptor tail) :
    entryWord? t = some word ∧ t.afterFirstWord = gap ++ (descriptor ++ tail) := by
  have hnone : Text.isBlankText [] = true := rfl
  obtain ⟨hfirst, -, hafter⟩ := Text.firstWord?_append hnone h.word_isWord h.head?_rest
  obtain ⟨hnext, -, hend⟩ :=
    Text.firstWord?_append h.gap_isBlank h.descriptor_isWord (head?_isBlank h.tail_isBlank)
  rw [List.nil_append, ← h.eq] at hfirst hafter
  rw [List.append_assoc] at hnext hend
  refine ⟨?_, hafter⟩
  rw [entryWord?, hfirst, hafter, hnext]
  simp only
  rw [hend, h.tail_isBlank, h.isDescriptor]
  rfl

/-- **In another spelling of an entry only its word is another one:** a descriptor has no letter
behind a point. -/
lemma exists_respelled (h : IsEntry t word gap descriptor tail) (hr : Respells t t') :
    ∃ word', Respells word word' ∧ IsEntry t' word' gap descriptor tail := by
  have hkept : ∀ {word' : Text}, Respells word word' → t' = word' ++ (gap ++ (descriptor ++ tail)) →
      ∃ word', Respells word word' ∧ IsEntry t' word' gap descriptor tail := fun hw ht =>
    ⟨_, hw, ht, hw.isWord h.word_isWord, h.gap_ne_nil, h.gap_isBlank, h.descriptor_isWord,
      h.isDescriptor, h.tail_isBlank⟩
  rcases hr with rfl | ⟨stem, x, e, back, hx, he, ht, ht'⟩
  · exact hkept (.refl word) h.eq
  rcases point_behind_or_in hx h.head?_rest (h.eq.symm.trans ht) with
    ⟨m, -, hbehind⟩ | ⟨m, hin, hback⟩
  · exfalso
    rw [List.append_assoc] at hbehind
    obtain ⟨k, -, hnext⟩ := point_behind_blank h.gap_isBlank hbehind
    have hnext : descriptor ++ tail = k ++ '.' :: x ++ back := by
      rw [hnext, List.append_assoc]
      rfl
    rcases point_behind_or_in hx (head?_isBlank h.tail_isBlank) hnext with ⟨n, -, hend⟩ | ⟨n, hin, -⟩
    · have hpoint := Text.isBlankText_iff.mp h.tail_isBlank '.' (by rw [hend]; simp)
      exact absurd hpoint (by decide)
    · obtain ⟨c, x, rfl⟩ := List.exists_cons_of_ne_nil hx.ne_nil
      have hno := @isDescriptor_letter k (x ++ n) c (hx.letters c (by simp))
      have hyes := h.isDescriptor
      rw [hin] at hyes
      simp only [List.append_assoc, List.cons_append] at hyes
      rw [hno] at hyes
      exact absurd hyes (by simp)
  · refine @hkept (stem ++ '.' :: e ++ m) (Or.inr ⟨stem, x, e, m, hx, he, hin, rfl⟩) ?_
    rw [ht', hback, List.append_assoc, List.append_assoc, List.append_assoc]

end IsEntry

/-- What an entry is read from. -/
lemma exists_isEntry (ht : t.IsTrimmed) (h : entryWord? t = some word) :
    ∃ gap descriptor tail, IsEntry t word gap descriptor tail := by
  rw [entryWord?] at h
  split at h
  · next first descriptor hfirst hnext =>
    split at h
    · next hdescribed =>
      rw [Option.some.injEq] at h
      subst h
      obtain ⟨heq, hword, hafter⟩ := Text.eq_of_firstWord? hfirst
      obtain ⟨heq', hdescriptor, -⟩ := Text.eq_of_firstWord? hnext
      rw [Bool.and_eq_true] at hdescribed
      rw [ht.trim_eq.2.1, List.nil_append] at heq
      refine ⟨t.afterFirstWord.leadingBlank, descriptor, t.afterFirstWord.afterFirstWord, ?_, hword,
        fun hnil => ?_, Text.isBlankText_leadingBlank _, hdescriptor, hdescribed.2, hdescribed.1⟩
      · rw [← List.append_assoc t.afterFirstWord.leadingBlank, ← heq', ← heq]
      · -- the first word would go on
        rw [hnil, List.nil_append] at heq'
        obtain ⟨c, w, rfl⟩ := List.exists_cons_of_ne_nil hdescriptor.ne_nil
        have hblank := hafter c (by rw [heq']; rfl)
        rw [hdescriptor.no_blank c (by simp)] at hblank
        exact absurd hblank (by simp)
    · exact absurd h (by simp)
  · exact absurd h (by simp)

/-! ### Parts -/

/-- A token of a value, or a gap between tokens. -/
inductive Part where
  | gap (text : Text)
  | token (text : Text)

/-- The text of a part. -/
def Part.text : Part → Text
  | .gap t => t
  | .token t => t

/-- The part in another spelling, if it is a token. -/
def Part.respell (f : Text → Text) : Part → Part
  | .gap t => .gap t
  | .token t => .token (f t)

/-- The text that parts make up. -/
def written (parts : List Part) : Text := parts.flatMap Part.text

/-- The tokens among parts that start at the given offset. -/
def tokensAt (start : Nat) : List Part → List Token
  | [] => []
  | .gap t :: parts => tokensAt (start + t.bytes) parts
  | .token t :: parts => ⟨t, start⟩ :: tokensAt (start + t.bytes) parts

/-- The parts of a segment between commas. -/
def segmentParts (segment : Text) : List Part :=
  match segment.firstWord? with
  | none => [.gap segment]
  | some word => [.gap segment.leadingBlank, .token word, .gap segment.afterFirstWord]

/-- The parts of segments with commas between them. -/
def listParts : List Text → List Part
  | [] => []
  | [segment] => segmentParts segment
  | segment :: segments => segmentParts segment ++ .gap [','] :: listParts segments

/-- The parts of a value without commas. -/
def plainParts (value : Text) : List Part :=
  if value.trim = [] then [.gap value]
  else match entryWord? value.trim with
    | none => [.gap value.leadingBlank, .token value.trim, .gap value.trailingBlank]
    | some word =>
      [.gap value.leadingBlank, .token word,
        .gap (value.trim.afterFirstWord ++ value.trailingBlank)]

/-- The parts of a value. -/
def parts (value : Text) : List Part :=
  if ',' ∈ value then listParts (Text.split ',' value) else plainParts value

section Parts

variable {value segment : Text} {segments : List Text} {f : Text → Text} {ps qs : List Part}

lemma written_append (ps qs : List Part) : written (ps ++ qs) = written ps ++ written qs :=
  List.flatMap_append

lemma written_cons (p : Part) (ps : List Part) : written (p :: ps) = p.text ++ written ps := rfl

lemma tokensAt_append (start : Nat) (ps qs : List Part) :
    tokensAt start (ps ++ qs) = tokensAt start ps ++ tokensAt (start + (written ps).bytes) qs := by
  induction ps generalizing start with
  | nil => rfl
  | cons p ps ih =>
      have hbytes : (written (p :: ps)).bytes = p.text.bytes + (written ps).bytes :=
        Text.bytes_append _ _
      rw [hbytes, ← Nat.add_assoc]
      cases p with
      | gap t => exact ih _
      | token t => exact congrArg (_ :: ·) (ih _)

lemma listParts_cons (segment next : Text) (segments : List Text) :
    listParts (segment :: next :: segments)
      = segmentParts segment ++ .gap [','] :: listParts (next :: segments) := rfl

/-! ### Parts make up the value -/

lemma written_segmentParts (segment : Text) : written (segmentParts segment) = segment := by
  rw [segmentParts]
  cases h : segment.firstWord? with
  | none => simp [written, Part.text]
  | some word =>
      have heq := (Text.eq_of_firstWord? h).1
      rw [List.append_assoc] at heq
      simpa [written, Part.text] using heq.symm

lemma tokensAt_segmentParts (start : Nat) (segment : Text) :
    tokensAt start (segmentParts segment) = (firstToken? segment start).toList := by
  rw [segmentParts, firstToken?]
  cases segment.firstWord? <;> rfl

lemma written_listParts (segments : List Text) :
    written (listParts segments) = Text.join ',' segments := by
  induction segments with
  | nil => rfl
  | cons segment segments ih =>
      cases segments with
      | nil => exact written_segmentParts segment
      | cons next segments =>
          rw [listParts_cons, written_append, written_segmentParts, written_cons, ih]
          rfl

lemma tokensAt_listParts (start : Nat) (segments : List Text) :
    tokensAt start (listParts segments) = segmentTokens start segments := by
  induction segments generalizing start with
  | nil => rfl
  | cons segment segments ih =>
      rw [segmentTokens]
      cases segments with
      | nil =>
          rw [listParts, tokensAt_segmentParts, segmentTokens, List.append_nil]
      | cons next segments =>
          rw [listParts_cons, tokensAt_append, tokensAt_segmentParts, written_segmentParts, ← ih]
          rfl

/-- A value without commas has the tokens of its parts. -/
lemma tokensAt_plainParts (hc : ',' ∉ value) : tokensAt 0 (plainParts value) = tokens value := by
  rw [tokens, if_neg hc, plainParts]
  by_cases htrim : value.trim = []
  · rw [if_pos htrim, htrim]
    rfl
  have hfirst : ∃ word, value.trim.firstWord? = some word := by
    cases hword : value.trim.firstWord? with
    | some word => exact ⟨word, rfl⟩
    | none =>
        exfalso
        obtain ⟨c, t, ht⟩ := List.exists_cons_of_ne_nil htrim
        have hstarts := (Text.isTrimmed_trim htrim).starts c (by rw [ht]; rfl)
        have hblank := Text.isBlankText_iff.mp (Text.isBlankText_of_firstWord?_eq_none hword) c
          (by rw [ht]; simp)
        rw [hstarts] at hblank
        exact absurd hblank (by simp)
  obtain ⟨word, hword⟩ := hfirst
  rw [if_neg htrim, entryWord?]
  simp only [hword]
  cases hnext : value.trim.afterFirstWord.firstWord? with
  | none => simp [tokensAt]
  | some descriptor =>
      simp only
      cases value.trim.afterFirstWord.afterFirstWord.isBlankText && isDescriptor descriptor <;>
        simp [tokensAt]

lemma written_plainParts (value : Text) : written (plainParts value) = value := by
  rw [plainParts]
  split
  · simp [written, Part.text]
  · next htrim =>
    have heq := Text.eq_append_trim value
    rw [List.append_assoc] at heq
    cases hentry : entryWord? value.trim with
    | none => simpa [written, Part.text] using heq.symm
    | some word =>
        obtain ⟨gap, descriptor, tail, he⟩ := exists_isEntry (Text.isTrimmed_trim htrim) hentry
        have hword := he.eq
        rw [← he.entryWord?_eq.2] at hword
        have hall : value
            = value.leadingBlank ++ (word ++ (value.trim.afterFirstWord ++ value.trailingBlank)) := by
          rw [← List.append_assoc word, ← hword]
          exact heq
        simpa [written, Part.text] using hall.symm

/-- **The parts make up the value.** -/
lemma written_parts (value : Text) : written (parts value) = value := by
  rw [parts]
  split
  · rw [written_listParts, Text.join_split]
  · exact written_plainParts value

/-- **The parts hold the tokens of the value.** -/
lemma tokensAt_parts (value : Text) : tokensAt 0 (parts value) = tokens value := by
  rw [parts]
  split
  · next hc => rw [tokensAt_listParts, tokens, if_pos hc]
  · next hc => exact tokensAt_plainParts hc

/-! ### Other spellings fall into the same parts -/

/-- The tokens among the parts have another spelling. -/
def RespellsAll (f : Text → Text) (ps : List Part) : Prop := ∀ t, .token t ∈ ps → Respells t (f t)

/-- A segment, with its token in another spelling. -/
def respelledSegment (f : Text → Text) (segment : Text) : Text :=
  written ((segmentParts segment).map (Part.respell f))

lemma mem_written_respell_iff (hf : RespellsAll f ps) :
    ',' ∈ written (ps.map (Part.respell f)) ↔ ',' ∈ written ps := by
  induction ps with
  | nil => exact Iff.rfl
  | cons p ps ih =>
      have hrest := ih fun t ht => hf t (by simp [ht])
      rw [List.map_cons, written_cons, written_cons, List.mem_append, List.mem_append, hrest]
      cases p with
      | gap t => exact Iff.rfl
      | token t => exact or_congr (hf t (by simp)).mem_comma_iff Iff.rfl

lemma segmentParts_respell (hf : RespellsAll f (segmentParts segment)) :
    segmentParts (respelledSegment f segment) = (segmentParts segment).map (Part.respell f) := by
  cases h : segment.firstWord? with
  | none =>
      have hparts : segmentParts segment = [.gap segment] := by rw [segmentParts, h]
      have hsame : respelledSegment f segment = segment := by
        rw [respelledSegment, hparts]
        exact List.append_nil segment
      rw [hsame, hparts]
      rfl
  | some word =>
      have hparts : segmentParts segment
          = [.gap segment.leadingBlank, .token word, .gap segment.afterFirstWord] := by
        rw [segmentParts, h]
      have hnew : respelledSegment f segment
          = segment.leadingBlank ++ f word ++ segment.afterFirstWord := by
        rw [respelledSegment, hparts]
        simp [written, Part.respell, Part.text]
      obtain ⟨-, hword, hafter⟩ := Text.eq_of_firstWord? h
      have hword' := (hf word (by simp [hparts])).isWord hword
      obtain ⟨hfirst, hleading, hrest⟩ :=
        Text.firstWord?_append (Text.isBlankText_leadingBlank segment) hword' hafter
      rw [hnew, segmentParts, hfirst, hleading, hrest, hparts]
      rfl

lemma written_listParts_respell (segments : List Text) :
    written ((listParts segments).map (Part.respell f))
      = Text.join ',' (segments.map (respelledSegment f)) := by
  induction segments with
  | nil => rfl
  | cons segment segments ih =>
      cases segments with
      | nil => rfl
      | cons next segments =>
          rw [listParts_cons, List.map_append, written_append, List.map_cons, written_cons, ih]
          rfl

lemma listParts_respell (hf : RespellsAll f (listParts segments)) :
    listParts (segments.map (respelledSegment f))
      = (listParts segments).map (Part.respell f) := by
  induction segments with
  | nil => rfl
  | cons segment segments ih =>
      cases segments with
      | nil => exact segmentParts_respell hf
      | cons next segments =>
          rw [listParts_cons] at hf
          have hfirst : RespellsAll f (segmentParts segment) := fun t ht => hf t (by simp [ht])
          have hrest : RespellsAll f (listParts (next :: segments)) := fun t ht =>
            hf t (by simp [ht])
          rw [List.map_cons, List.map_cons, listParts_cons, segmentParts_respell hfirst,
            ← List.map_cons, ih hrest, listParts_cons, List.map_append]
          rfl

lemma plainParts_of_no_entry (ht : value.trim ≠ []) (h : entryWord? value.trim = none) :
    plainParts value
      = [.gap value.leadingBlank, .token value.trim, .gap value.trailingBlank] := by
  rw [plainParts, if_neg ht, h]

lemma plainParts_of_entry {word : Text} (ht : value.trim ≠ [])
    (h : entryWord? value.trim = some word) :
    plainParts value = [.gap value.leadingBlank, .token word,
      .gap (value.trim.afterFirstWord ++ value.trailingBlank)] := by
  rw [plainParts, if_neg ht, h]

lemma plainParts_respell (hf : RespellsAll f (plainParts value)) :
    plainParts (written ((plainParts value).map (Part.respell f)))
      = (plainParts value).map (Part.respell f) := by
  have hgap := Text.isBlankText_leadingBlank value
  have hback := Text.isBlankText_trailingBlank value
  by_cases htrim : value.trim = []
  · have hparts : plainParts value = [.gap value] := by rw [plainParts, if_pos htrim]
    have hsame : written ((plainParts value).map (Part.respell f)) = value := by
      rw [hparts]
      exact List.append_nil value
    rw [hsame, hparts]
    rfl
  have htrimmed := Text.isTrimmed_trim htrim
  cases hentry : entryWord? value.trim with
  | none =>
      have hparts := plainParts_of_no_entry htrim hentry
      have hr := hf value.trim (by simp [hparts])
      have htrimmed' := hr.isTrimmed htrimmed
      -- were the new spelling an entry, the old one would be one
      have hentry' : entryWord? (f value.trim) = none := by
        cases h : entryWord? (f value.trim) with
        | none => rfl
        | some word =>
            obtain ⟨gap, descriptor, tail, he⟩ := exists_isEntry htrimmed' h
            obtain ⟨word', -, he'⟩ := he.exists_respelled hr.symm
            rw [he'.entryWord?_eq.1] at hentry
            exact absurd hentry (by simp)
      have hnew : written ((plainParts value).map (Part.respell f))
          = value.leadingBlank ++ f value.trim ++ value.trailingBlank := by
        rw [hparts]
        simp [written, Part.respell, Part.text]
      obtain ⟨htrim', hleading, htrailing⟩ := Text.trim_append hgap htrimmed' hback
      rw [hnew, plainParts_of_no_entry (by rw [htrim']; exact htrimmed'.ne_nil)
        (by rw [htrim', hentry']), htrim', hleading, htrailing, hparts]
      rfl
  | some word =>
      have hparts := plainParts_of_entry htrim hentry
      obtain ⟨gap, descriptor, tail, he⟩ := exists_isEntry htrimmed hentry
      have hafter := he.entryWord?_eq.2
      have hr := hf word (by simp [hparts])
      have he' : IsEntry (f word ++ value.trim.afterFirstWord) (f word) gap descriptor tail :=
        ⟨by rw [hafter], hr.isWord he.word_isWord, he.gap_ne_nil, he.gap_isBlank, he.descriptor_isWord,
          he.isDescriptor, he.tail_isBlank⟩
      have htrimmed' : Text.IsTrimmed (f word ++ value.trim.afterFirstWord) := by
        refine Respells.isTrimmed (hr.append_right _) ?_
        rw [hafter, ← he.eq]
        exact htrimmed
      have hnew : written ((plainParts value).map (Part.respell f))
          = value.leadingBlank ++ (f word ++ value.trim.afterFirstWord)
            ++ value.trailingBlank := by
        rw [hparts]
        simp [written, Part.respell, Part.text]
      obtain ⟨htrim', hleading, htrailing⟩ := Text.trim_append hgap htrimmed' hback
      rw [hnew, plainParts_of_entry (by rw [htrim']; exact htrimmed'.ne_nil)
        (by rw [htrim', he'.entryWord?_eq.1]), htrim', hleading, htrailing, he'.entryWord?_eq.2,
        ← hafter, hparts]
      rfl

lemma token_mem_listParts {segment t : Text} (hs : segment ∈ segments)
    (ht : .token t ∈ segmentParts segment) : .token t ∈ listParts segments := by
  induction segments with
  | nil => exact absurd hs (by simp)
  | cons first segments ih =>
      cases segments with
      | nil =>
          rw [List.mem_singleton.mp hs] at ht
          exact ht
      | cons next segments =>
          rw [listParts_cons, List.mem_append, List.mem_cons]
          rcases List.mem_cons.mp hs with rfl | hs
          · exact Or.inl ht
          · exact Or.inr (Or.inr (ih hs))

/-- **Spelled anew, a value falls into the same parts.** -/
lemma parts_respell (hf : RespellsAll f (parts value)) :
    parts (written ((parts value).map (Part.respell f))) = (parts value).map (Part.respell f) := by
  have hcomma := mem_written_respell_iff hf
  rw [written_parts] at hcomma
  by_cases hc : ',' ∈ value
  · have hparts : parts value = listParts (Text.split ',' value) := by rw [parts, if_pos hc]
    have hfree : ∀ piece ∈ (Text.split ',' value).map (respelledSegment f), ',' ∉ piece := by
      intro piece hpiece
      obtain ⟨segment, hmem, rfl⟩ := List.mem_map.mp hpiece
      have hsegment : RespellsAll f (segmentParts segment) := fun t ht =>
        hf t (by rw [hparts]; exact token_mem_listParts hmem ht)
      rw [respelledSegment, mem_written_respell_iff hsegment, written_segmentParts]
      exact Text.not_mem_of_mem_split hmem
    have hsplit := Text.split_join (by simpa using Text.split_ne_nil ',' value) hfree
    rw [parts, if_pos (hcomma.mpr hc), hparts, written_listParts_respell, hsplit,
      listParts_respell (hparts ▸ hf)]
  · have hparts : parts value = plainParts value := by rw [parts, if_neg hc]
    rw [parts, if_neg fun h => hc (hcomma.mp h), hparts, plainParts_respell (hparts ▸ hf)]

/-- In another spelling, a text goes on as before up to a point. -/
lemma written_respell_cases (hf : RespellsAll f ps) :
    written (ps.map (Part.respell f)) = written ps ∨
      ∃ stem a b : Text, written ps = stem ++ '.' :: a ∧
        written (ps.map (Part.respell f)) = stem ++ '.' :: b := by
  induction ps with
  | nil => exact Or.inl rfl
  | cons p ps ih =>
      have hbehind : ∀ t : Text, t ++ written (ps.map (Part.respell f)) = t ++ written ps ∨
          ∃ stem a b : Text, t ++ written ps = stem ++ '.' :: a ∧
            t ++ written (ps.map (Part.respell f)) = stem ++ '.' :: b := by
        intro t
        rcases ih fun t ht => hf t (by simp [ht]) with hsame | ⟨stem, a, b, ha, hb⟩
        · exact Or.inl (by rw [hsame])
        · exact Or.inr ⟨t ++ stem, a, b, by rw [ha, List.append_assoc],
            by rw [hb, List.append_assoc]⟩
      rw [List.map_cons, written_cons, written_cons]
      cases p with
      | gap t => exact hbehind t
      | token t =>
          rcases hf t (by simp) with hsame | ⟨stem, x, e, rest, -, -, ht, ht'⟩
          · rw [Part.respell, Part.text, Part.text, hsame]
            exact hbehind t
          · refine Or.inr ⟨stem, x ++ (rest ++ written ps),
              e ++ (rest ++ written (ps.map (Part.respell f))), ?_, ?_⟩
            · rw [Part.text, ht]
              simp
            · rw [Part.respell, Part.text, ht']
              simp

/-- **Spelled anew, a value starts with the same marks.** -/
lemma startsWith_respell (hf : RespellsAll f ps) {mark : Text} (hmark : '.' ∉ mark) :
    (written (ps.map (Part.respell f))).trimStart.startsWith mark
      = (written ps).trimStart.startsWith mark := by
  have htrim : ∀ stem a : Text, Text.trimStart (stem ++ '.' :: a) = stem.trimStart ++ '.' :: a := by
    intro stem a
    induction stem with
    | nil => rfl
    | cons c stem ih =>
        rw [Text.trimStart] at ih
        rw [Text.trimStart, Text.trimStart, List.cons_append, List.dropWhile_cons,
          List.dropWhile_cons, ih]
        split <;> rfl
  rcases written_respell_cases hf with hsame | ⟨stem, a, b, ha, hb⟩
  · rw [hsame]
  · rw [ha, hb, htrim, htrim, Text.startsWith_point hmark, Text.startsWith_point hmark]

end Parts

end Reference

end ImageMigration
