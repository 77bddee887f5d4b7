/-
Where references stand in a value.

Offsets count bytes over trimmed white space, segments between commas and queries. What carries them
is that every step cuts a piece out of a piece, so that a token is a piece of the value, and that
tokens come one after the other.

* `Reference.isAt_of_mem_tokens`, `Reference.pairwise_tokens`: tokens are pieces in order;
* `Reference.isAt_of_mem_ofValue`, `Reference.pairwise_ofValue`: so are references;
* `Reference.exists_ending`, `Reference.exists_extension`: the image extension of a reference is the
  end of its path, and its range is where it stands;
* `Reference.IsSlice`, `Reference.ofValue_isSlice`: **all that references tell of a value is so.**
-/
import ImageMigration.Proofs.Text.Cut
import ImageMigration.Proofs.Text.Words
import ImageMigration.Reference

namespace ImageMigration

/-! ### White space -/

namespace Text

/-- The first word stands behind the leading white space. -/
lemma isAt_firstWord? {t word : Text} (h : t.firstWord? = some word) :
    IsAt t t.leadingBlank.bytes word :=
  ⟨t.leadingBlank, t.afterFirstWord, (eq_of_firstWord? h).1, rfl⟩

end Text

namespace Reference

open Text (IsAt)

/-- What a reference tells of a value is so. Its text is what the value holds at its offset, the path
in front of the first question mark and the query behind it. The path ends in an image extension,
and the range of the extension is where that end stands. -/
structure IsSlice (value : Text) (r : Reference) : Prop where
  raw : r.raw = r.clean ++ r.query
  not_mem_clean : '?' ∉ r.clean
  query : r.query = [] ∨ ∃ rest, r.query = '?' :: rest
  slice : Text.slice? r.offset (r.offset + r.raw.bytes) value = some r.raw
  extension : ∃ stem ending, r.clean = stem ++ ending ∧ ending.lowerAscii ∈ imageExtensions ∧
    r.extensionRange? = some (r.offset + stem.bytes, r.offset + r.clean.bytes) ∧
    Text.slice? (r.offset + stem.bytes) (r.offset + r.clean.bytes) value = some ending

/-! ### Tokens -/

variable {value : Text} {token : Token} {r : Reference}

lemma isAt_of_firstToken? {segment : Text} {start : Nat}
    (h : firstToken? segment start = some token) :
    ∃ n, token.offset = start + n ∧ IsAt segment n token.text := by
  rw [firstToken?, Option.map_eq_some_iff] at h
  obtain ⟨word, hword, rfl⟩ := h
  exact ⟨_, rfl, Text.isAt_firstWord? hword⟩

/-- The first words of segments are pieces of the text that the segments make up. -/
lemma isAt_of_mem_segmentTokens {segments : List Text} {front : Text}
    (h : token ∈ segmentTokens front.bytes segments) :
    IsAt (front ++ Text.join ',' segments) token.offset token.text := by
  induction segments generalizing front with
  | nil => exact absurd h (by simp [segmentTokens])
  | cons segment segments ih =>
      rw [segmentTokens, List.mem_append, Option.mem_toList] at h
      rcases h with hfirst | hrest
      · obtain ⟨n, hn, hat⟩ := isAt_of_firstToken? hfirst
        rw [hn]
        refine IsAt.append_left ?_ front
        cases segments with
        | nil => exact hat
        | cons next segments =>
            rw [Text.join_cons (by simp)]
            exact hat.append_right _
      · cases segments with
        | nil => exact absurd hrest (by simp [segmentTokens])
        | cons next segments =>
            have hbytes : front.bytes + segment.bytes + 1 = (front ++ segment ++ [',']).bytes := by
              have hcomma : Char.utf8Size ',' = 1 := by decide
              simp only [Text.bytes_append, Text.bytes_cons, Text.bytes_nil, hcomma]
            rw [hbytes] at hrest
            have hat := ih hrest
            rw [Text.join_cons (by simp)]
            simpa using hat

lemma le_offset_of_mem_segmentTokens {segments : List Text} {start : Nat}
    (h : token ∈ segmentTokens start segments) : start ≤ token.offset := by
  induction segments generalizing start with
  | nil => exact absurd h (by simp [segmentTokens])
  | cons segment segments ih =>
      rw [segmentTokens, List.mem_append, Option.mem_toList] at h
      rcases h with hfirst | hrest
      · obtain ⟨n, hn, -⟩ := isAt_of_firstToken? hfirst
        omega
      · have hle := ih hrest
        omega

/-- The first words of segments come one after the other. -/
lemma pairwise_segmentTokens (start : Nat) (segments : List Text) :
    (segmentTokens start segments).Pairwise fun a b => a.offset + a.text.bytes ≤ b.offset := by
  induction segments generalizing start with
  | nil => exact List.Pairwise.nil
  | cons segment segments ih =>
      rw [segmentTokens, List.pairwise_append]
      refine ⟨?_, ih _, fun a ha b hb => ?_⟩
      · cases firstToken? segment start <;> simp
      · rw [Option.mem_toList] at ha
        obtain ⟨n, hn, hat⟩ := isAt_of_firstToken? ha
        have hle := hat.le_bytes
        have hnext := le_offset_of_mem_segmentTokens hb
        omega

/-- A value without commas has one token at most: the trimmed value or its first word. -/
lemma tokens_of_no_comma (hc : ',' ∉ value) :
    tokens value = [] ∨ ∃ token, tokens value = [token] ∧ IsAt value token.offset token.text := by
  have htrim : IsAt value value.leadingBlank.bytes value.trim :=
    ⟨_, _, Text.eq_append_trim value, rfl⟩
  have hword : ∀ word, value.trim.firstWord? = some word →
      IsAt value value.leadingBlank.bytes word := by
    intro word hw
    have hlead : value.trim.leadingBlank = [] := by
      have hcut := Text.leadingBlank_append_trimStart value.trim
      rw [Text.trimStart_trim] at hcut
      simpa using hcut
    have hat := Text.isAt_firstWord? hw
    rw [hlead] at hat
    simpa using htrim.trans hat
  rw [tokens, if_neg hc]
  simp only
  split
  · exact Or.inl rfl
  · next word hw =>
    split
    · exact Or.inr ⟨_, rfl, htrim⟩
    · split
      · exact Or.inr ⟨_, rfl, hword word hw⟩
      · exact Or.inr ⟨_, rfl, htrim⟩

/-- **Tokens are pieces of the value.** -/
lemma isAt_of_mem_tokens (h : token ∈ tokens value) : IsAt value token.offset token.text := by
  by_cases hc : ',' ∈ value
  · rw [tokens, if_pos hc] at h
    have hat : IsAt ([] ++ Text.join ',' (Text.split ',' value)) token.offset token.text :=
      isAt_of_mem_segmentTokens h
    rwa [List.nil_append, Text.join_split] at hat
  · rcases tokens_of_no_comma hc with hnil | ⟨token', hone, hat⟩
    · rw [hnil] at h
      exact absurd h (by simp)
    · rw [hone, List.mem_singleton] at h
      rwa [h]

/-- **Tokens come one after the other.** -/
lemma pairwise_tokens (value : Text) :
    (tokens value).Pairwise fun a b => a.offset + a.text.bytes ≤ b.offset := by
  by_cases hc : ',' ∈ value
  · rw [tokens, if_pos hc]
    exact pairwise_segmentTokens 0 _
  · rcases tokens_of_no_comma hc with hnil | ⟨token', hone, -⟩
    · rw [hnil]
      exact List.Pairwise.nil
    · rw [hone]
      exact List.pairwise_singleton _ _

/-! ### References -/

/-- A reference is its token, cut at the first question mark. -/
lemma ofToken?_eq_some (h : ofToken? token = some r) :
    r.raw = token.text ∧ r.offset = token.offset ∧ r.raw = r.clean ++ r.query ∧
      r.clean.hasImageExtension = true ∧ r.kind = .static := by
  simp only [ofToken?] at h
  split at h
  · next hext =>
    rw [Option.some.injEq] at h
    rw [← h]
    refine ⟨rfl, rfl, List.takeWhile_append_dropWhile.symm, ?_, rfl⟩
    rw [Bool.and_eq_true] at hext
    exact hext.1
  · exact absurd h (by simp)

/-- The path of a reference has no query. -/
lemma not_mem_clean (h : ofToken? token = some r) : '?' ∉ r.clean := by
  have hclean : r.clean = token.text.takeWhile (· ≠ '?') := by
    simp only [ofToken?] at h
    split at h
    · rw [← Option.some.inj h]
    · exact absurd h (by simp)
  intro hmem
  rw [hclean] at hmem
  exact absurd (List.mem_takeWhile_imp hmem) (by simp)

lemma head?_query (h : ofToken? token = some r) : ∀ c ∈ r.query.head?, c = '?' := by
  have hquery : r.query = token.text.dropWhile (· ≠ '?') := by
    simp only [ofToken?] at h
    split at h
    · rw [← Option.some.inj h]
    · exact absurd h (by simp)
  intro c hc
  have hhead := List.head?_dropWhile_not (fun c : Char => decide (c ≠ '?')) token.text
  rw [hquery, Option.mem_def] at hc
  rw [hc] at hhead
  simpa using hhead

lemma exists_token_of_mem_ofValue (h : r ∈ ofValue value) :
    ∃ token ∈ tokens value, ofToken? token = some r := by
  rw [ofValue] at h
  split at h
  · exact absurd h (by simp)
  · exact List.mem_filterMap.mp h

/-- A reference in a value is a piece of it. -/
lemma isAt_of_mem_ofValue (h : r ∈ ofValue value) : IsAt value r.offset r.raw := by
  obtain ⟨token, hmem, htoken⟩ := exists_token_of_mem_ofValue h
  obtain ⟨hraw, hoffset, -⟩ := ofToken?_eq_some htoken
  rw [hraw, hoffset]
  exact isAt_of_mem_tokens hmem

lemma kind_of_mem_ofValue (h : r ∈ ofValue value) : r.kind = .static := by
  obtain ⟨token, -, htoken⟩ := exists_token_of_mem_ofValue h
  exact (ofToken?_eq_some htoken).2.2.2.2

lemma raw_eq_of_mem_ofValue (h : r ∈ ofValue value) : r.raw = r.clean ++ r.query := by
  obtain ⟨token, -, htoken⟩ := exists_token_of_mem_ofValue h
  exact (ofToken?_eq_some htoken).2.2.1

/-- The references of a value come one after the other. -/
lemma pairwise_ofValue (value : Text) :
    (ofValue value).Pairwise fun a b => a.offset + a.raw.bytes ≤ b.offset := by
  rw [ofValue]
  split
  · exact List.Pairwise.nil
  · rw [List.pairwise_filterMap]
    refine (pairwise_tokens value).imp ?_
    intro s t hst a ha b hb
    obtain ⟨hraw, hoffset, -⟩ := ofToken?_eq_some ha
    obtain ⟨-, hoffset', -⟩ := ofToken?_eq_some hb
    rw [hraw, hoffset, hoffset']
    exact hst

/-! ### Extensions -/

/-- A character that has an ASCII letter as its lower-case form is one byte. -/
lemma utf8Size_of_toLower {c : Char} (h : c.toLower.utf8Size = 1) : c.utf8Size = 1 := by
  rw [Char.utf8Size_eq_one_iff] at h ⊢
  by_cases hc : 'A'.val ≤ c.val ∧ c.val ≤ 'Z'.val
  · have hle : c.val ≤ 'Z'.val := hc.2
    exact Nat.le_trans hle (by decide)
  · have hsame : c.toLower = c := dif_neg hc
    rwa [hsame] at h

/-- The lower-case form of a text of bytes has as many. -/
lemma bytes_of_lowerAscii {t e : Text} (h : t.lowerAscii = e) (he : ∀ c ∈ e, c.utf8Size = 1) :
    t.bytes = e.bytes := by
  subst h
  induction t with
  | nil => rfl
  | cons c t ih =>
      have hc : c.toLower.utf8Size = 1 := he _ (by simp [Text.lowerAscii])
      have hrest := ih fun x hx => he x (by
        simp only [Text.lowerAscii, List.map_cons, List.mem_cons] at hx ⊢
        exact Or.inr hx)
      have hlower : Text.lowerAscii (c :: t) = c.toLower :: Text.lowerAscii t := rfl
      rw [hlower, Text.bytes_cons, Text.bytes_cons, hrest, hc, utf8Size_of_toLower hc]

/-- The image extension of a text is its end. -/
lemma exists_of_imageExtension? {t e : Text} (h : t.imageExtension? = some e) :
    ∃ stem x, t = stem ++ x ∧ x ≠ [] ∧ x.lowerAscii = e ∧ x.bytes = e.bytes := by
  rw [Text.imageExtension?] at h
  have hmem := List.mem_of_find?_eq_some h
  have hsuffix := List.find?_some h
  rw [List.isSuffixOf_iff_suffix] at hsuffix
  obtain ⟨front, hfront⟩ := hsuffix
  obtain ⟨stem, x, ht, -, hx⟩ := List.map_eq_append_iff.mp hfront.symm
  have hascii : ∀ e ∈ imageExtensions, e ≠ [] ∧ ∀ c ∈ e, c.utf8Size = 1 := by
    simp [imageExtensions, Char.utf8Size]
  obtain ⟨hne, hbytes⟩ := hascii e hmem
  refine ⟨stem, x, ht, ?_, hx, bytes_of_lowerAscii hx hbytes⟩
  rintro rfl
  exact hne hx.symm

/-- **The image extension of a reference** is the end of its path, in whatever case it is written,
and its range is where that end stands in the value. -/
lemma exists_ending (htoken : ofToken? token = some r) :
    ∃ stem x, r.clean = stem ++ x ∧ x ≠ [] ∧ r.clean.imageExtension? = some x.lowerAscii ∧
      r.extensionRange? = some (r.offset + stem.bytes, r.offset + stem.bytes + x.bytes) := by
  have hext := (ofToken?_eq_some htoken).2.2.2.1
  rw [Text.hasImageExtension, Option.isSome_iff_exists] at hext
  obtain ⟨e, he⟩ := hext
  obtain ⟨stem, x, hclean, hne, hlower, hbytes⟩ := exists_of_imageExtension? he
  refine ⟨stem, x, hclean, hne, by rw [he, hlower], ?_⟩
  rw [extensionRange?, he, hclean]
  simp only [Option.map_some, Text.bytes_append, Option.some.injEq, Prod.mk.injEq]
  omega

lemma exists_extension (h : r ∈ ofValue value) :
    ∃ stem e, r.clean = stem ++ e ∧ e ≠ [] ∧
      r.extensionRange? = some (r.offset + stem.bytes, r.offset + stem.bytes + e.bytes) := by
  obtain ⟨token, -, htoken⟩ := exists_token_of_mem_ofValue h
  obtain ⟨stem, x, hclean, hne, -, hrange⟩ := exists_ending htoken
  exact ⟨stem, x, hclean, hne, hrange⟩

/-! ### All that is told -/

lemma raw_ne_nil (h : ofToken? token = some r) : r.raw ≠ [] := by
  obtain ⟨stem, x, hclean, hne, -, -⟩ := exists_ending h
  rw [(ofToken?_eq_some h).2.2.1, hclean]
  simp [hne]

lemma isSlice_of_mem_ofValue (h : r ∈ ofValue value) : r.IsSlice value := by
  obtain ⟨token, -, htoken⟩ := exists_token_of_mem_ofValue h
  have hat := isAt_of_mem_ofValue h
  have hraw := raw_eq_of_mem_ofValue h
  obtain ⟨stem, ending, hclean, -, hending, hrange⟩ := exists_ending htoken
  have hmem : ending.lowerAscii ∈ imageExtensions := List.mem_of_find?_eq_some hending
  have hbytes : r.offset + stem.bytes + ending.bytes = r.offset + r.clean.bytes := by
    rw [hclean, Text.bytes_append, Nat.add_assoc]
  refine ⟨hraw, not_mem_clean htoken, ?_, Text.isAt_iff_slice?.mp hat,
    stem, ending, hclean, hmem, ?_, ?_⟩
  · cases hquery : r.query with
    | nil => exact Or.inl rfl
    | cons c rest => exact Or.inr ⟨rest, by rw [head?_query htoken c (by rw [hquery]; rfl)]⟩
  · rw [hrange, hbytes]
  · -- the end of the path is a piece of the reference, which is a piece of the value
    have hinner : IsAt r.raw stem.bytes ending :=
      ⟨stem, r.query, by rw [hraw, hclean, List.append_assoc], rfl⟩
    rw [← hbytes]
    exact Text.isAt_iff_slice?.mp (hat.trans hinner)

/-- **References tell of a value what is so**: each of them is a slice of it, cut at the boundaries of
characters, with its query and its image extension where they stand. No two of them overlap, and
their offsets go up. -/
theorem ofValue_isSlice (value : Text) :
    (∀ r ∈ ofValue value, r.IsSlice value) ∧
      (ofValue value).Pairwise fun r r' =>
        r.offset + r.raw.bytes ≤ r'.offset ∧ r.offset < r'.offset := by
  refine ⟨fun r hr => isSlice_of_mem_ofValue hr, ?_⟩
  refine (pairwise_ofValue value).imp_of_mem fun {r r'} hr _ hle => ⟨hle, ?_⟩
  obtain ⟨token, -, htoken⟩ := exists_token_of_mem_ofValue hr
  have hpos : 0 < r.raw.bytes := Text.bytes_pos (raw_ne_nil htoken)
  omega

/-- Behind wide blanks and a letter of two bytes, with a query and a descriptor. -/
theorem ofValue_isSlice_of_two :
    let value := "\u3000/caf\u00e9.PNG?v=1 2x,\u00a0b.jpeg".toList
    let first : Reference :=
      ⟨"/caf\u00e9.PNG?v=1".toList, "/caf\u00e9.PNG".toList, "?v=1".toList, 3, .static⟩
    let second : Reference := ⟨"b.jpeg".toList, "b.jpeg".toList, [], 23, .static⟩
    ofValue value = [first, second] ∧ first.extensionRange? = some (9, 13) ∧
      first.IsSlice value ∧ second.IsSlice value ∧ first.offset < second.offset := by
  intro value first second
  have hvalue : ofValue value = [first, second] := by decide +kernel
  obtain ⟨hslices, hpairs⟩ := ofValue_isSlice value
  rw [hvalue] at hslices hpairs
  refine ⟨hvalue, by decide +kernel, hslices first (by simp), hslices second (by simp), ?_⟩
  exact ((List.pairwise_cons.mp hpairs).1 second (by simp)).2

end Reference

end ImageMigration
