/-
What a rewriting leaves in a value.

The exchange of extensions spells the tokens of a value anew, and the value falls into the same
parts again. A reference with a new extension is no reference any more, and all others are what they
were. So a value is rewritten once and for all.

* `Lookup.HasPlainExtensions`: new images whose extensions are words, and end no image;
* `Reference.rewritten`: a value with the extensions of its converted references exchanged, token by
  token;
* `Reference.spliced_rewritten`: **it is what the exchanges of the value make of it**;
* `Reference.movedBy`: a reference at the place that edits move it to;
* `Reference.ofValue_rewritten`: **its references are those that are not converted,** moved by the
  exchanges in front of them.
-/
import ImageMigration.Proofs.Lookup.Match
import ImageMigration.Proofs.Plan.Rewrites
import ImageMigration.Proofs.Reference.Parts

namespace ImageMigration

open Reference (Token Part tokensAt written parts ofToken? RespellsAll)

/-- A word of letters that ends no image. -/
structure IsPlainExtension (e : Text) : Prop extends Text.IsLetters e where
  not_image : Text.lowerAscii ('.' :: e) ∉ imageExtensions

lemma isPlainExtension_webp : IsPlainExtension "webp".toList where
  ne_nil := by decide
  letters := List.all_eq_true.mp (by decide)
  not_image := by decide

/-- The new images have such extensions. -/
def Lookup.HasPlainExtensions (lookup : Lookup) : Prop :=
  ∀ entry ∈ lookup, ∃ e, entry.2.extension? = some e ∧ IsPlainExtension e

/-! ### Tokens -/

namespace Reference

variable {token : Token} {r : Reference} {t e : Text}

/-- A reference at the place that edits move it to. -/
def movedBy (edits : List Edit) (r : Reference) : Reference :=
  { r with offset := Edit.moved edits r.offset }

/-- A token is the same reference anywhere, but for its place. -/
lemma ofToken?_eq (t : Text) (n : Nat) :
    ofToken? ⟨t, n⟩ = (ofToken? ⟨t, 0⟩).map fun r => { r with offset := n } := by
  simp only [ofToken?]
  split <;> rfl

/-- A letter in lower case is a letter in any case. -/
lemma isAlpha_of_toLower {c : Char} (h : c.toLower.isAlpha = true) : c.isAlpha = true := by
  by_cases hc : 'A'.val ≤ c.val ∧ c.val ≤ 'Z'.val
  · have hupper : c.isUpper = true := decide_eq_true hc
    exact Bool.or_eq_true_iff.mpr (Or.inl hupper)
  · have hsame : c.toLower = c := dif_neg hc
    rwa [hsame] at h

/-- The extension of a reference is a word. -/
lemma isLetters_of_imageExtension (h : Text.lowerAscii ('.' :: t) ∈ imageExtensions) :
    t.IsLetters := by
  have hall : imageExtensions.all (fun e => !e.tail.isEmpty && e.tail.all Char.isAlpha) = true := by
    decide
  have hone := List.all_eq_true.mp hall _ h
  rw [Bool.and_eq_true, Bool.not_eq_true', List.isEmpty_eq_false_iff, List.all_eq_true] at hone
  obtain ⟨hne, hletters⟩ := hone
  refine ⟨?_, fun c hc => isAlpha_of_toLower (hletters _ (List.mem_map_of_mem hc))⟩
  rintro rfl
  exact hne rfl

/-- A path with another extension than that of an image ends in none. -/
lemma imageExtension?_eq_none (he : IsPlainExtension e) (stem : Text) :
    Text.imageExtension? (stem ++ '.' :: e) = none := by
  have hlower : ∀ t : Text, Text.lowerAscii ('.' :: t) = '.' :: t.lowerAscii := by
    intro t
    have hpoint : Char.toLower '.' = '.' := by decide
    rw [Text.lowerAscii, List.map_cons, hpoint]
    rfl
  have hall : (stem ++ '.' :: e).lowerAscii = stem.lowerAscii ++ '.' :: e.lowerAscii := by
    rw [← hlower]
    exact List.map_append
  have hno : '.' ∉ e.lowerAscii := by
    intro hmem
    obtain ⟨c, hc, hlow⟩ := List.mem_map.mp hmem
    have hletter := he.letters c hc
    rw [eq_point_of_toLower hlow] at hletter
    exact absurd hletter (by decide)
  have hshape : ∀ x ∈ imageExtensions, ∃ y : Text, x = '.' :: y ∧ '.' ∉ y := by
    simp [imageExtensions]
  have hpoints : ∀ {u v : Text}, '.' ∉ v → '.' :: u <:+ '.' :: v → '.' :: u = '.' :: v := by
    intro u v hv hsuffix
    refine (List.suffix_cons_iff.mp hsuffix).resolve_right fun h => ?_
    exact hv (h.subset (by simp))
  rw [Text.imageExtension?, List.find?_eq_none]
  intro x hx hsuffix
  obtain ⟨y, rfl, hy⟩ := hshape x hx
  rw [List.isSuffixOf_iff_suffix, hall] at hsuffix
  refine he.not_image ?_
  rw [hlower]
  -- both are what stands from the last point on
  rcases List.suffix_or_suffix_of_suffix hsuffix (List.suffix_append _ _) with h | h
  · rw [← hpoints hno h]
    exact hx
  · rw [hpoints hy h]
    exact hx

/-! ### Tokens with new extensions -/

/-- The extension that a reference is given, if its image was converted. -/
def newExtension? (lookup : Lookup) (site : Site) (r : Reference) : Option Text :=
  (lookup.match? r site).bind Path.extension?

/-- A token, with the extension of its reference exchanged if its image was converted. -/
def renewed (lookup : Lookup) (site : Site) (t : Text) : Text :=
  match ofToken? ⟨t, 0⟩ with
  | none => t
  | some r =>
    match newExtension? lookup site r with
    | none => t
    | some e => (r.withExtension e).raw

variable {lookup : Lookup} {site : Site}

lemma newExtension?_eq_none_iff (hlookup : lookup.HasPlainExtensions) :
    newExtension? lookup site r = none ↔ lookup.match? r site = none := by
  rw [newExtension?]
  cases hmatch : lookup.match? r site with
  | none => simp
  | some converted =>
      obtain ⟨image, hmem, -⟩ := Lookup.exists_mem_of_match? hmatch
      obtain ⟨e, he, -⟩ := hlookup _ hmem
      simp only at he
      simp [he]

lemma isPlainExtension_of_newExtension? (hlookup : lookup.HasPlainExtensions)
    (h : newExtension? lookup site r = some e) : IsPlainExtension e := by
  obtain ⟨converted, hmatch, he⟩ := Option.bind_eq_some_iff.mp h
  obtain ⟨image, hmem, -⟩ := Lookup.exists_mem_of_match? hmatch
  obtain ⟨e', he', hplain⟩ := hlookup _ hmem
  rw [he] at he'
  exact Option.some.inj he' ▸ hplain

/-- What becomes of a token whose image was converted. -/
lemma exists_renewed (h : ofToken? ⟨t, 0⟩ = some r) (he : newExtension? lookup site r = some e) :
    ∃ stem x : Text, x.IsLetters ∧ t = stem ++ '.' :: x ++ r.query ∧ '?' ∉ stem ∧
      renewed lookup site t = stem ++ '.' :: e ++ r.query ∧
      r.swap? lookup site
        = some ⟨stem.bytes, stem.bytes + Text.bytes ('.' :: x), '.' :: e⟩ := by
  obtain ⟨stem, x, -, himage, hclean, hrange, hwith⟩ := exists_stem_of_token h
  obtain ⟨hraw, hoffset, hcut, -⟩ := ofToken?_eq_some h
  simp only at hraw hoffset
  rw [hoffset, Nat.zero_add] at hrange
  refine ⟨stem, x, isLetters_of_imageExtension himage, ?_, fun hmem => ?_, ?_, ?_⟩
  · rw [← hraw, hcut, hclean]
  · exact not_mem_clean h (by rw [hclean]; simp [hmem])
  · rw [renewed, h]
    simp only [he, hwith]
  · rw [newExtension?] at he
    obtain ⟨converted, hmatch, hext⟩ := Option.bind_eq_some_iff.mp he
    exact swap?_eq_some_iff.mpr ⟨converted, e, hmatch, hext, hrange, rfl⟩

lemma renewed_of_none (h : ∀ r, ofToken? ⟨t, 0⟩ = some r → newExtension? lookup site r = none) :
    renewed lookup site t = t := by
  rw [renewed]
  cases hr : ofToken? ⟨t, 0⟩ with
  | none => rfl
  | some r => simp only [h r hr]

/-- **A token with a new extension is another spelling of it.** -/
lemma respells_renewed (hlookup : lookup.HasPlainExtensions) (t : Text) :
    Respells t (renewed lookup site t) := by
  by_cases hnone : ∀ r, ofToken? ⟨t, 0⟩ = some r → newExtension? lookup site r = none
  · exact Or.inl (renewed_of_none hnone)
  · simp only [not_forall] at hnone
    obtain ⟨r, hr, hsome⟩ := hnone
    obtain ⟨e, he⟩ := Option.ne_none_iff_exists'.mp hsome
    obtain ⟨stem, x, hx, ht, -, hnew, -⟩ := exists_renewed hr he
    exact Or.inr ⟨stem, x, e, r.query, hx, (isPlainExtension_of_newExtension? hlookup he).toIsLetters,
      ht, hnew⟩

/-- **A token is the reference that it was, if that was not converted, and none otherwise.** -/
lemma ofToken?_renewed (hlookup : lookup.HasPlainExtensions) (t : Text) :
    ofToken? ⟨renewed lookup site t, 0⟩
      = (ofToken? ⟨t, 0⟩).filter fun r => (lookup.match? r site).isNone := by
  cases hr : ofToken? ⟨t, 0⟩ with
  | none =>
      rw [renewed_of_none (by simp [hr]), hr]
      rfl
  | some r =>
      cases he : newExtension? lookup site r with
      | none =>
          have hnone := (newExtension?_eq_none_iff hlookup).mp he
          have hsame : renewed lookup site t = t := renewed_of_none fun r' hr' => by
            rw [hr, Option.some.injEq] at hr'
            rw [← hr', he]
          rw [hsame, hr, Option.filter_some, hnone]
          rfl
      | some e =>
          have hsome : (lookup.match? r site).isNone = false := by
            cases hmatch : lookup.match? r site with
            | some converted => rfl
            | none =>
                rw [(newExtension?_eq_none_iff hlookup).mpr hmatch] at he
                exact absurd he (by simp)
          obtain ⟨stem, x, -, -, hstem, hnew, -⟩ := exists_renewed hr he
          have hplain := isPlainExtension_of_newExtension? hlookup he
          have hquery : ∀ c ∈ stem ++ '.' :: e, decide (c ≠ '?') = true := by
            intro c hc
            rw [decide_eq_true_eq]
            rintro rfl
            rcases List.mem_append.mp hc with hc | hc
            · exact hstem hc
            · rcases List.mem_cons.mp hc with hc | hc
              · exact absurd hc (by decide)
              · exact absurd (hplain.letters _ hc) (by decide)
          have hclean : (stem ++ '.' :: e ++ r.query).takeWhile (· ≠ '?') = stem ++ '.' :: e := by
            rw [List.takeWhile_append_of_pos hquery]
            cases hq : r.query with
            | nil => simp
            | cons c query =>
                rw [head?_query hr c (by rw [hq]; rfl)]
                simp
          rw [Option.filter_some, hsome, hnew]
          simp only [ofToken?, hclean, Text.hasImageExtension, imageExtension?_eq_none hplain]
          rfl

/-! ### Parts -/

section Parts

/-- The references among parts that start at the given offset. -/
def referencesAt (start : Nat) (ps : List Part) : List Reference :=
  (tokensAt start ps).filterMap ofToken?

/-- The parts with new extensions. -/
def renewedParts (lookup : Lookup) (site : Site) (ps : List Part) : List Part :=
  ps.map (Part.respell (renewed lookup site))

lemma referencesAt_gap (start : Nat) (t : Text) (ps : List Part) :
    referencesAt start (.gap t :: ps) = referencesAt (start + t.bytes) ps := rfl

lemma referencesAt_token (start : Nat) (t : Text) (ps : List Part) :
    referencesAt start (.token t :: ps)
      = (ofToken? ⟨t, start⟩).toList ++ referencesAt (start + t.bytes) ps := by
  rw [referencesAt, tokensAt, List.filterMap_cons]
  cases ofToken? ⟨t, start⟩ <;> rfl

/-- Parts that start further behind have their references there. -/
lemma referencesAt_add (m n : Nat) (ps : List Part) :
    referencesAt (m + n) ps
      = (referencesAt n ps).map fun r => { r with offset := m + r.offset } := by
  induction ps generalizing n with
  | nil => rfl
  | cons p ps ih =>
      cases p with
      | gap t => rw [referencesAt_gap, referencesAt_gap, Nat.add_assoc, ih]
      | token t =>
          rw [referencesAt_token, referencesAt_token, Nat.add_assoc, ih, List.map_append,
            ofToken?_eq t (m + n), ofToken?_eq t n]
          cases ofToken? ⟨t, 0⟩ <;> rfl

lemma swap?_of_none {r : Reference} (h : newExtension? lookup site r = none) :
    r.swap? lookup site = none := by
  cases hswap : r.swap? lookup site with
  | none => rfl
  | some swap =>
      obtain ⟨converted, e, hmatch, he, -⟩ := swap?_eq_some_iff.mp hswap
      rw [newExtension?, hmatch, Option.bind_some, he] at h
      exact absurd h (by simp)

/-- The exchange for a reference that stands further behind. -/
lemma swap?_offset (m : Nat) (r : Reference) :
    Reference.swap? lookup site { r with offset := m + r.offset }
      = (r.swap? lookup site).map (Edit.shift m) := by
  have hmatch : lookup.match? { r with offset := m + r.offset } site = lookup.match? r site := rfl
  have hrange : Reference.extensionRange? { r with offset := m + r.offset }
      = r.extensionRange?.map fun range => (m + range.1, m + range.2) := by
    rw [extensionRange?, extensionRange?, Option.map_map]
    refine congrArg (fun f => Option.map f r.clean.imageExtension?) (funext fun e => ?_)
    simp only [Function.comp_apply, Prod.mk.injEq]
    omega
  rw [swap?, swap?, hmatch, hrange]
  cases lookup.match? r site with
  | none => rfl
  | some converted =>
      cases r.extensionRange? with
      | none => rfl
      | some range => cases h : converted.extension? <;> simp [h, Edit.shift]

/-- The exchange for a token spells it anew. -/
lemma spliced_renewed (lookup : Lookup) (site : Site) (t : Text) :
    Edit.Spliced t ((ofToken? ⟨t, 0⟩).toList.filterMap (swap? lookup site)).reverse
      (renewed lookup site t) := by
  cases hr : ofToken? ⟨t, 0⟩ with
  | none =>
      rw [renewed_of_none (by simp [hr])]
      exact .nil t
  | some r =>
      cases he : newExtension? lookup site r with
      | none =>
          rw [renewed_of_none fun r' hr' => by rw [← Option.some.inj (hr.symm.trans hr'), he]]
          rw [Option.toList_some, List.filterMap_cons, swap?_of_none he]
          exact .nil t
      | some e =>
          obtain ⟨stem, x, -, ht, -, hnew, hswap⟩ := exists_renewed hr he
          rw [Option.toList_some, List.filterMap_cons, hswap, hnew]
          nth_rewrite 1 [ht]
          exact .cons rfl rfl (.nil stem)

/-- The exchanges for parts that start further behind. -/
lemma swaps_referencesAt (lookup : Lookup) (site : Site) (n : Nat) (ps : List Part) :
    (referencesAt n ps).filterMap (swap? lookup site)
      = ((referencesAt 0 ps).filterMap (swap? lookup site)).map (Edit.shift n) := by
  have hadd := referencesAt_add n 0 ps
  rw [Nat.add_zero] at hadd
  rw [hadd, List.filterMap_map, List.map_filterMap]
  exact List.filterMap_congr fun r _ => swap?_offset n r

/-- Exchanges in front of a token and the one for the token, if there is one. -/
lemma spliced_append_renewed {u u' : Text} {edits : List Edit} (h : Edit.Spliced u edits u')
    (lookup : Lookup) (site : Site) (t : Text) :
    Edit.Spliced (u ++ t)
      (((ofToken? ⟨t, u.bytes⟩).toList.filterMap (swap? lookup site)).reverse ++ edits)
      (u' ++ renewed lookup site t) := by
  have hone : ∀ n, referencesAt n [.token t] = (ofToken? ⟨t, n⟩).toList := fun n => by
    rw [referencesAt_token]
    exact List.append_nil _
  rw [← hone, swaps_referencesAt, hone, ← List.map_reverse]
  exact h.append (spliced_renewed lookup site t)

/-- **Exchanges spell all tokens anew.** -/
lemma spliced_renewedParts (lookup : Lookup) (site : Site) (ps : List Part) {u u' : Text}
    {edits : List Edit} (h : Edit.Spliced u edits u') :
    Edit.Spliced (u ++ written ps)
      (((referencesAt u.bytes ps).filterMap (swap? lookup site)).reverse ++ edits)
      (u' ++ written (renewedParts lookup site ps)) := by
  induction ps generalizing u u' edits with
  | nil => simpa [referencesAt, tokensAt, renewedParts, written] using h
  | cons p ps ih =>
      cases p with
      | gap t =>
          have hrest := ih (h.append (.nil t))
          rw [Text.bytes_append] at hrest
          simpa [referencesAt_gap, written_cons, Part.text, renewedParts, Part.respell] using hrest
      | token t =>
          have hrest := ih (spliced_append_renewed h lookup site t)
          rw [Text.bytes_append] at hrest
          simpa [referencesAt_token, written_cons, Part.text, renewedParts, Part.respell]
            using hrest

/-- References of parts stand behind the start of the parts. -/
lemma le_offset_of_mem_referencesAt {n : Nat} {ps : List Part} (h : r ∈ referencesAt n ps) :
    n ≤ r.offset := by
  induction ps generalizing n with
  | nil => exact absurd h (by simp [referencesAt, tokensAt])
  | cons p ps ih =>
      cases p with
      | gap t =>
          have hle := ih (n := n + t.bytes) h
          omega
      | token t =>
          rw [referencesAt_token, List.mem_append, Option.mem_toList] at h
          rcases h with hfirst | hrest
          · exact Nat.le_of_eq (ofToken?_eq_some hfirst).2.1.symm
          · have hle := ih hrest
            omega

/-- The exchanges for parts end behind the start of the parts. -/
lemma lt_stop_of_mem_swaps {n : Nat} {ps : List Part} {swap : Edit}
    (h : swap ∈ (referencesAt n ps).filterMap (swap? lookup site)) : n < swap.stop := by
  obtain ⟨r, hr, hswap⟩ := List.mem_filterMap.mp h
  have hle := le_offset_of_mem_referencesAt hr
  obtain ⟨token, -, htoken⟩ := List.mem_filterMap.mp hr
  obtain ⟨stem, x, -, hne, -, hrange⟩ := exists_ending htoken
  have hpos := Text.bytes_pos hne
  obtain ⟨-, -, -, -, hrange', -⟩ := swap?_eq_some_iff.mp hswap
  rw [hrange, Option.some.injEq, Prod.mk.injEq] at hrange'
  omega

/-- **The references of parts with new extensions are those that are not converted.** What stands in
front of the parts was edited before, so that each reference is moved by those edits and by the
exchanges for the parts in front of it. -/
lemma referencesAt_renewedParts (hlookup : lookup.HasPlainExtensions) (ps : List Part)
    {u u' : Text} {edits : List Edit} (h : Edit.Spliced u edits u') :
    referencesAt u'.bytes (renewedParts lookup site ps)
      = ((referencesAt u.bytes ps).filter fun r => (lookup.match? r site).isNone).map
          (movedBy (((referencesAt u.bytes ps).filterMap (swap? lookup site)).reverse ++ edits)) := by
  induction ps generalizing u u' edits with
  | nil => rfl
  | cons p ps ih =>
      cases p with
      | gap t =>
          have hrest := ih (h.append (.nil t))
          rw [Text.bytes_append, Text.bytes_append] at hrest
          exact hrest
      | token t =>
          have hrest := ih (spliced_append_renewed h lookup site t)
          have hmoved : u'.bytes = Edit.moved
              (((referencesAt u.bytes (.token t :: ps)).filterMap (swap? lookup site)).reverse
                ++ edits) u.bytes :=
            h.bytes_eq_moved fun e he => lt_stop_of_mem_swaps (List.mem_reverse.mp he)
          have hsame : renewedParts lookup site (.token t :: ps)
              = .token (renewed lookup site t) :: renewedParts lookup site ps := rfl
          rw [Text.bytes_append, Text.bytes_append, ← List.append_assoc, ← List.reverse_append,
            ← List.filterMap_append, ← referencesAt_token] at hrest
          rw [hsame, referencesAt_token _ (renewed lookup site t), hrest]
          generalize ((referencesAt u.bytes (.token t :: ps)).filterMap
            (swap? lookup site)).reverse ++ edits = all at hmoved ⊢
          rw [referencesAt_token, List.filter_append, List.map_append, ofToken?_eq t u.bytes,
            ofToken?_eq (renewed lookup site t) u'.bytes, ofToken?_renewed hlookup]
          congr 1
          cases hr : ofToken? ⟨t, 0⟩ with
          | none => rfl
          | some r =>
              have hmatch : lookup.match? { r with offset := u.bytes } site = lookup.match? r site :=
                rfl
              simp only [Option.map_some, Option.toList_some, Option.filter_some,
                List.filter_cons, List.filter_nil, hmatch]
              cases (lookup.match? r site).isNone with
              | false => rfl
              | true => simp [movedBy, ← hmoved]

end Parts

/-! ### Values -/

section Values

variable {value value' : Text}

/-- A value with the extensions of its converted references exchanged, token by token. -/
def rewritten (lookup : Lookup) (site : Site) (value : Text) : Text :=
  if value.trimStart.startsWith "data:".toList then value
  else written (renewedParts lookup site (parts value))

lemma ofValue_eq_referencesAt (h : value.trimStart.startsWith "data:".toList = false) :
    ofValue value = referencesAt 0 (parts value) := by
  rw [ofValue, h, referencesAt, tokensAt_parts]
  rfl

/-- **The exchanges of a value rewrite it token by token.** -/
lemma spliced_rewritten (lookup : Lookup) (site : Site) (value : Text) :
    Edit.Spliced value (valueEdits lookup site value).reverse (rewritten lookup site value) := by
  rw [rewritten, valueEdits]
  cases h : value.trimStart.startsWith "data:".toList with
  | true =>
      rw [ofValue, h]
      exact .nil value
  | false =>
      have hsplice := spliced_renewedParts lookup site (parts value) (.nil [])
      rw [List.nil_append, List.nil_append, List.append_nil, written_parts] at hsplice
      rw [ofValue_eq_referencesAt h]
      exact hsplice

lemma eq_rewritten_of_applyAll?
    (h : Edit.applyAll? value (valueEdits lookup site value) = some value') :
    value' = rewritten lookup site value :=
  Option.some.inj (h.symm.trans (Literal.applyAll?_valueEdits (spliced_rewritten ..)))

/-- **A rewritten value has the references that are not converted**, in their order, each moved by
the exchanges in front of it. -/
lemma ofValue_rewritten (hlookup : lookup.HasPlainExtensions) (site : Site) (value : Text) :
    ofValue (rewritten lookup site value)
      = ((ofValue value).filter fun r => (lookup.match? r site).isNone).map
          (movedBy (valueEdits lookup site value)) := by
  rw [rewritten]
  cases h : value.trimStart.startsWith "data:".toList with
  | true =>
      have hnil : ofValue value = [] := by
        rw [ofValue, h]
        rfl
      rw [if_pos rfl, hnil]
      rfl
  | false =>
      have hspells : RespellsAll (renewed lookup site) (parts value) :=
        fun t _ => respells_renewed hlookup t
      have hstarts : (written (renewedParts lookup site (parts value))).trimStart.startsWith
          "data:".toList = false := by
        refine (startsWith_respell hspells (by decide)).trans ?_
        rw [written_parts, h]
      have hparts : parts (written (renewedParts lookup site (parts value)))
          = renewedParts lookup site (parts value) := parts_respell hspells
      have hreferences := @referencesAt_renewedParts lookup site hlookup (parts value) _ _ _ (.nil [])
      rw [Text.bytes_nil, ← ofValue_eq_referencesAt h, List.append_nil] at hreferences
      rw [if_neg (by simp), ofValue_eq_referencesAt hstarts, hparts, hreferences, valueEdits]
      refine List.map_congr_left fun r _ => ?_
      rw [movedBy, movedBy, Edit.moved_eq_of_perm (List.reverse_perm _)]

end Values

end Reference

end ImageMigration
