/-
What a rewritten string denotes.

A string denotes a sequence of code units, whatever escapes it is written with. Where the source
shows its value, the exchanged extensions are written into it as they are; where it is written anew,
it is written from its value. Both ways it denotes the same code units as before, with those of the
extensions exchanged: if its value tells them all, which it does not when the string has half of a
surrogate pair.

* `Plan.UnitsExchanged`: code units of a text with those of some pieces exchanged;
* `Literal.denotes_respelled`: what a string denotes that is written for a new value;
* `Plan.keeps_meaning`: **each string keeps its meaning**, up to the extensions;
* `Plan.half_pair_lost`: half of a pair is lost when its string is written anew.
-/
import ImageMigration.Proofs.Plan.Rewrites
import ImageMigration.Proofs.Script.StringBody
import ImageMigration.Script

namespace ImageMigration

open Text (IsAt)
open Script (units unitsOf cook isSurrogate)

/-! ### Code units under edits -/

namespace Plan

/-- The first code units are those of the text; the second ones are the same, but for the pieces
under the edits, which are exchanged. The edits come from the back to the front. -/
inductive UnitsExchanged : Text → List Edit → List Nat → List Nat → Prop where
  | nil (t : Text) : UnitsExchanged t [] (unitsOf t) (unitsOf t)
  | cons {e : Edit} {edits : List Edit} {front piece back : Text} {us us' : List Nat}
      (hstart : front.bytes = e.start) (hstop : e.start + piece.bytes = e.stop)
      (hfront : UnitsExchanged front edits us us') :
      UnitsExchanged (front ++ piece ++ back) (e :: edits) (us ++ unitsOf piece ++ unitsOf back)
        (us' ++ unitsOf e.replacement ++ unitsOf back)

end Plan

namespace Edit

variable {t t' : Text} {edits : List Edit} {c : Char}

/-- Exchanges in a text are exchanges of its code units. -/
lemma Spliced.unitsExchanged (h : Spliced t edits t') :
    Plan.UnitsExchanged t edits (unitsOf t) (unitsOf t') := by
  induction h with
  | nil t => exact .nil t
  | cons hstart hstop hfront ih =>
      simp only [Script.unitsOf_append]
      exact .cons hstart hstop ih

/-- A character of an edited text was there before, or an edit put it in. -/
lemma Spliced.mem_or (h : Spliced t edits t') (hc : c ∈ t') :
    c ∈ t ∨ ∃ e ∈ edits, c ∈ e.replacement := by
  induction h with
  | nil t => exact Or.inl hc
  | @cons e edits front piece back front' hstart hstop hfront ih =>
      rcases List.mem_append.mp hc with hc | hc
      · rcases List.mem_append.mp hc with hc | hc
        · rcases ih hc with hc | ⟨d, hd, hc⟩
          · exact Or.inl (by simp [hc])
          · exact Or.inr ⟨d, List.mem_cons_of_mem _ hd, hc⟩
        · exact Or.inr ⟨e, List.mem_cons_self, hc⟩
      · exact Or.inl (by simp [hc])

end Edit

/-! ### Strings -/

namespace Literal

variable {lookup : Lookup} {site : Site} {mark : Char} {body value value' : Text}
  {codes : List Nat} {swaps : List Edit}

/-- A string with the given body between its quotes denotes the codes. -/
def Denotes (mark : Char) (body : Text) (codes : List Nat) : Prop :=
  Script.readBody? mark (body ++ [mark]) = some (codes, [])

/-- A body without escapes is its value. -/
lemma cook_eq_of_no_escape (hread : Denotes mark body codes)
    (hwhole : ∀ n ∈ codes, isSurrogate n = false) (hback : '\\' ∉ body) : cook codes = body := by
  obtain ⟨-, hlt, hself⟩ := Script.readBody?_spec hread
  obtain ⟨-, hcodes⟩ := hself (Or.inl hback)
  have hmap : (cook codes).map Char.toNat = body.map Char.toNat := by
    rw [Script.map_toNat_cook hlt hwhole, hcodes]
  exact List.map_injective_iff.mpr (fun c d h => Char.toNat_inj.mp h) hmap

/-- A body that is its value stands for itself. -/
lemma isPlain_of_cook_eq (hread : Denotes mark body codes)
    (hwhole : ∀ n ∈ codes, isSurrogate n = false) (hvalue : cook codes = body) :
    Script.IsPlain mark body := by
  obtain ⟨-, hlt, hself⟩ := Script.readBody?_spec hread
  have hlen : codes.length = body.length := by
    calc codes.length = ((cook codes).map Char.toNat).length := by
          rw [Script.map_toNat_cook hlt hwhole]
      _ = body.length := by rw [List.length_map, hvalue]
  exact (hself (Or.inr hlen)).1

/-- **What a string denotes that is written for a new value:** the codes of that value. New pieces
that go between the quotes as they are have to stand for themselves there. -/
lemma denotes_respelled (hmark : mark ∈ ['\'', '"']) (hread : Denotes mark body codes)
    (hwhole : ∀ n ∈ codes, isSurrogate n = false)
    (hnew : body = cook codes → ∀ e ∈ swaps, Script.IsPlain mark e.replacement)
    (hswaps : Edit.Spliced (cook codes) swaps value') :
    ∃ body', respelled mark body (cook codes) value' = mark :: body' ++ [mark] ∧
      Denotes mark body' (value'.map Char.toNat) := by
  by_cases hsame : body = cook codes
  · -- between the quotes stands the value, and in the end the new one
    have hplain : Script.IsPlain mark value' := by
      intro c hc
      rcases hswaps.mem_or hc with hc | ⟨e, he, hc⟩
      · rw [← hsame] at hc
        exact isPlain_of_cook_eq hread hwhole hsame.symm c hc
      · exact hnew hsame e he c hc
    exact ⟨value', by rw [respelled, if_pos hsame], Script.readBody?_plain hplain⟩
  · have hback : '\\' ∈ body := by
      by_contra hno
      exact hsame (cook_eq_of_no_escape hread hwhole hno).symm
    exact ⟨_, by rw [respelled, if_neg hsame, if_pos hback, Script.quote],
      Script.readBody?_quote hmark value' []⟩

end Literal

/-! ### Plans -/

namespace Plan

open Literal (AreQuoted IsQuoted Denotes)

variable {lookup : Lookup} {site : Site} {source value body : Text} {span : Span} {mark : Char}
  {verbatim : Bool} {literals : List Literal} {codes : List Nat}

/-- A string that had the given value and codes, as it is written in the end: it denotes the codes
as before, or their code units with those of the exchanged extensions replaced. -/
structure KeepsMeaning (lookup : Lookup) (site : Site) (value : Text) (codes : List Nat)
    (mark : Char) (body : Text) (codes' : List Nat) : Prop where
  denotes : Denotes mark body codes'
  unmatched : valueEdits lookup site value = [] → codes' = codes
  matched : valueEdits lookup site value ≠ [] →
    UnitsExchanged value (valueEdits lookup site value).reverse (units codes) (units codes')

/-- **Each string keeps its meaning,** up to the exchanged extensions. The value of a string that is
rewritten has to tell all its codes, so that none may be half of a pair; and where an extension is
exchanged in place, the new one may not end the string or start an escape. -/
theorem keeps_meaning (hs : AreQuoted source literals) (lookup : Lookup) (site : Site)
    (hl : .string span (cook codes) verbatim ∈ literals) (hquoted : IsQuoted source span mark body)
    (hread : Denotes mark body codes)
    (hwhole : valueEdits lookup site (cook codes) ≠ [] → ∀ n ∈ codes, isSurrogate n = false)
    (hnew : body = cook codes →
      ∀ e ∈ valueEdits lookup site (cook codes), Script.IsPlain mark e.replacement) :
    ∃ rewrites text body' codes',
      Edit.applyAll? source (ofLiterals lookup site source literals).edits = some text ∧
      Edit.Spliced source rewrites text ∧
      (∀ e, e ∈ rewrites ↔ ∃ l ∈ literals, l.Rewrites lookup site source e) ∧
      IsAt text (Edit.moved rewrites span.start) (mark :: body' ++ [mark]) ∧
      KeepsMeaning lookup site (cook codes) codes mark body' codes' := by
  obtain ⟨rewrites, text, hspliced, hmem⟩ := exists_rewrites hs lookup site
  have happly := applyAll?_of_spliced hs hspliced hmem
  by_cases hswaps : valueEdits lookup site (cook codes) = []
  · have hat := isAt_of_unmatched hs hspliced hmem hl hswaps hquoted.slice
    exact ⟨rewrites, text, body, codes, happly, hspliced, hmem, hat,
      { denotes := hread, unmatched := fun _ => rfl, matched := fun h => absurd hswaps h }⟩
  · obtain ⟨e, he⟩ := hs.exists_rewrites hl hswaps
    obtain ⟨hstart, hstop, value', hvalue, hreplacement⟩ := he.replacement_eq hquoted
    have hat := hspliced.isAt_replacement ((hmem e).mpr ⟨_, hl, he⟩) (hs.fits hl he).lt
    obtain ⟨body', hbody, hdenotes⟩ := Literal.denotes_respelled hquoted.mark_mem hread
      (hwhole hswaps) (fun h d hd => hnew h d (List.mem_reverse.mp hd)) hvalue
    rw [hstart, hreplacement, hbody] at hat
    refine ⟨rewrites, text, body', value'.map Char.toNat, happly, hspliced, hmem, hat, ?_⟩
    refine { denotes := hdenotes, unmatched := fun h => absurd h hswaps, matched := fun _ => ?_ }
    -- without halves of pairs, the code units of the value are those of the codes
    obtain ⟨-, hlt, -⟩ := Script.readBody?_spec hread
    have hunits : unitsOf (cook codes) = units codes := by
      rw [unitsOf, Script.map_toNat_cook hlt (hwhole hswaps)]
    rw [← hunits]
    exact hvalue.unitsExchanged

/-- A string with escapes of several kinds, a line that goes on behind its end among them. -/
def escapedSource : Text := "const s = '\\u\x7b2f\x7dlogo.png 1x, \\\n/it\\'s.png 2x';\n".toList

/-- What stands between its quotes. -/
def escapedBody : Text := "\\u\x7b2f\x7dlogo.png 1x, \\\n/it\\'s.png 2x".toList

/-- The codes that it denotes. -/
def escapedCodes : List Nat := "/logo.png 1x, /it's.png 2x".toList.map Char.toNat

/-- The string is written anew, and denotes what it did, with the first extension exchanged. -/
theorem keeps_meaning_of_escaped :
    let lookup : Lookup := [(⟨"/repo/public/logo.png".toList⟩, ⟨"/repo/public/logo.webp".toList⟩)]
    let site : Site := ⟨⟨"/repo".toList⟩, ⟨"/repo/src/home.ts".toList⟩⟩
    let literals : List Literal := [.string ⟨10, 46⟩ (cook escapedCodes) false]
    Script.literals? site.file escapedSource = some literals ∧
      IsQuoted escapedSource ⟨10, 46⟩ '\'' escapedBody ∧
      Denotes '\'' escapedBody escapedCodes ∧
      ∃ rewrites text body' codes',
        Edit.applyAll? escapedSource (ofLiterals lookup site escapedSource literals).edits
          = some text ∧
        Edit.Spliced escapedSource rewrites text ∧
        IsAt text (Edit.moved rewrites 10) ('\'' :: body' ++ ['\'']) ∧
        Denotes '\'' body' codes' ∧
        UnitsExchanged (cook escapedCodes) [⟨5, 9, ".webp".toList⟩] (units escapedCodes)
          (units codes') := by
  intro lookup site literals
  have hquoted : IsQuoted escapedSource ⟨10, 46⟩ '\'' escapedBody := ⟨by decide, by decide +kernel⟩
  have hread : Denotes '\'' escapedBody escapedCodes := by
    rw [Denotes]
    decide +kernel
  have hvalue : escapedBody ≠ cook escapedCodes := by decide +kernel
  have hedits : valueEdits lookup site (cook escapedCodes) = [⟨5, 9, ".webp".toList⟩] := by
    decide +kernel
  have hs : AreQuoted escapedSource literals := by
    constructor
    · intro span value verbatim hl
      obtain ⟨rfl, rfl, rfl⟩ : span = ⟨10, 46⟩ ∧ value = cook escapedCodes ∧ verbatim = false := by
        simpa [literals] using hl
      exact ⟨_, _, hquoted, by simp [hvalue]⟩
    · intro span value verbatim span' value' verbatim' hl hl'
      rw [List.mem_singleton.mp hl, List.mem_singleton.mp hl']
      exact Or.inl rfl
  obtain ⟨rewrites, text, body', codes', happly, hspliced, -, hat, hkept⟩ :=
    keeps_meaning hs lookup site (List.mem_singleton.mpr rfl) hquoted hread
      (fun _ => by decide) (fun h => absurd h hvalue)
  have hmatched := hkept.matched (by rw [hedits]; simp)
  rw [hedits] at hmatched
  exact ⟨by decide +kernel, hquoted, hread, rewrites, text, body', codes', happly, hspliced, hat,
    hkept.denotes, hmatched⟩

/-- **Half of a pair is lost** when its string is written anew: the value tells it by U+FFFD and its
digits, and this is what is written. -/
theorem half_pair_lost :
    let source : Text := "const icon = '\\ud83d, /logo.png';\n".toList
    let lookup : Lookup := [(⟨"/repo/public/logo.png".toList⟩, ⟨"/repo/public/logo.webp".toList⟩)]
    let site : Site := ⟨⟨"/repo".toList⟩, ⟨"/repo/src/home.ts".toList⟩⟩
    let codes : List Nat := 0xD83D :: ", /logo.png".toList.map Char.toNat
    let codes' : List Nat := 0xFFFD :: "d83d, /logo.webp".toList.map Char.toNat
    ∃ literals, Script.literals? site.file source = some literals ∧
      .string ⟨13, 32⟩ (cook codes) false ∈ literals ∧
      IsQuoted source ⟨13, 32⟩ '\'' "\\ud83d, /logo.png".toList ∧
      Denotes '\'' "\\ud83d, /logo.png".toList codes ∧
      Edit.applyAll? source (ofLiterals lookup site source literals).edits
        = some "const icon = '\ufffdd83d, /logo.webp';\n".toList ∧
      Denotes '\'' "\ufffdd83d, /logo.webp".toList codes' ∧
      (units codes).head? = some 0xD83D ∧ (units codes').head? = some 0xFFFD := by
  intro source lookup site codes codes'
  refine ⟨[.string ⟨13, 32⟩ (cook codes) false], by decide +kernel, List.mem_singleton.mpr rfl,
    ⟨by decide, by decide +kernel⟩, ?_, by decide +kernel, ?_, rfl, rfl⟩
  · rw [Denotes]
    decide +kernel
  · rw [Denotes]
    decide +kernel

end Plan

end ImageMigration
