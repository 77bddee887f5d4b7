/-
Source sets, entry by entry.

In a value with commas each entry is looked at by itself: its first word may be a reference, and
whatever is exchanged in it stays in it. So a source set is rewritten by rewriting its entries,
whatever stands beside them.

* `Reference.RewritesTo`: what the exchanges of a value make of it;
* `Reference.rewritten_join`: the entries of a source set, spelled anew one by one;
* `Reference.rewritesTo_join`: **a source set is rewritten entry by entry.**
-/
import Mathlib.Data.List.Forall2
import ImageMigration.Proofs.Reference.Rewritten

namespace ImageMigration.Reference

/-- The second value is the first one with all its exchanges made. -/
def RewritesTo (lookup : Lookup) (site : Site) (value value' : Text) : Prop :=
  Edit.applyAll? value (valueEdits lookup site value) = some value'

variable {lookup : Lookup} {site : Site} {entries : List Text} {s : Text}

lemma rewritesTo_rewritten (lookup : Lookup) (site : Site) (value : Text) :
    RewritesTo lookup site value (rewritten lookup site value) :=
  Literal.applyAll?_valueEdits (spliced_rewritten lookup site value)

/-- An entry of a source set, with its first word spelled anew if that is a converted reference. -/
def renewedEntry (lookup : Lookup) (site : Site) (entry : Text) : Text :=
  respelledSegment (renewed lookup site) entry

lemma comma_mem_join (htwo : 2 ≤ entries.length) : ',' ∈ Text.join ',' entries := by
  obtain ⟨first, rest, rfl⟩ := List.exists_cons_of_length_pos (by omega : 0 < entries.length)
  have hrest : rest ≠ [] := by
    rintro rfl
    exact absurd htwo (by simp)
  rw [Text.join_cons hrest]
  simp

/-- **The value of a source set falls apart at its commas,** and each entry is spelled anew. -/
lemma rewritten_join (htwo : 2 ≤ entries.length) (hfree : ∀ s ∈ entries, ',' ∉ s)
    (hdata : (Text.join ',' entries).trimStart.startsWith "data:".toList = false) :
    rewritten lookup site (Text.join ',' entries)
      = Text.join ',' (entries.map (renewedEntry lookup site)) := by
  have hne : entries ≠ [] := by
    rintro rfl
    exact absurd htwo (by simp)
  have hparts : parts (Text.join ',' entries) = listParts entries := by
    rw [parts, if_pos (comma_mem_join htwo), Text.split_join hne hfree]
  calc rewritten lookup site (Text.join ',' entries)
      = written ((listParts entries).map (Part.respell (renewed lookup site))) := by
        rw [rewritten, if_neg (by rw [hdata]; exact Bool.false_ne_true), hparts, renewedParts]
    _ = Text.join ',' (entries.map (renewedEntry lookup site)) := written_listParts_respell entries

/-- An entry on its own, behind a comma, is spelled anew as it is among others. -/
lemma rewritten_comma_cons (hs : ',' ∉ s) :
    rewritten lookup site (',' :: s) = ',' :: renewedEntry lookup site s := by
  have hfree : ∀ piece ∈ [[], s], ',' ∉ piece := by simpa using hs
  have hdata : (Text.join ',' [[], s]).trimStart.startsWith "data:".toList = false := by
    have hcomma : isBlank ',' = false := by decide
    rw [Text.join_cons (by simp), Text.trimStart, List.nil_append,
      List.dropWhile_cons_of_neg (by simp [hcomma])]
    rfl
  exact @rewritten_join lookup site [[], s] (Nat.le_refl _) hfree hdata

/-- **A source set is rewritten entry by entry.** The entries that it is rewritten to are what each
of its entries is rewritten to on its own, behind a comma. -/
theorem rewritesTo_join (lookup : Lookup) (site : Site) (htwo : 2 ≤ entries.length)
    (hfree : ∀ s ∈ entries, ',' ∉ s)
    (hdata : (Text.join ',' entries).trimStart.startsWith "data:".toList = false) :
    ∃ entries' : List Text,
      List.Forall₂ (fun s s' => RewritesTo lookup site (',' :: s) (',' :: s')) entries entries' ∧
      RewritesTo lookup site (Text.join ',' entries) (Text.join ',' entries') := by
  refine ⟨entries.map (renewedEntry lookup site), ?_, ?_⟩
  · rw [List.forall₂_map_right_iff, List.forall₂_same]
    intro s hs
    rw [← rewritten_comma_cons (hfree s hs)]
    exact rewritesTo_rewritten lookup site (',' :: s)
  · rw [← rewritten_join htwo hfree hdata]
    exact rewritesTo_rewritten lookup site (Text.join ',' entries)

/-- Four entries with white space, a query and letters of several bytes. Two of them are rewritten,
each to what it is rewritten to on its own. -/
theorem rewritesTo_join_of_four :
    let lookup : Lookup :=
      [(⟨"/repo/public/é/a.png".toList⟩, ⟨"/repo/public/é/a.webp".toList⟩)]
    let site : Site := ⟨⟨"/repo".toList⟩, ⟨"/repo/src/home.ts".toList⟩⟩
    let entries : List Text :=
      [" /é/a.png?v=2 1x".toList, "\tü".toList, "./keep.jpg 2x".toList, "/é/a.png".toList]
    2 ≤ entries.length ∧ (∀ s ∈ entries, ',' ∉ s) ∧
      (Text.join ',' entries).trimStart.startsWith "data:".toList = false ∧
      RewritesTo lookup site " /é/a.png?v=2 1x,\tü,./keep.jpg 2x,/é/a.png".toList
        " /é/a.webp?v=2 1x,\tü,./keep.jpg 2x,/é/a.webp".toList := by
  intro lookup site entries
  have htwo : 2 ≤ entries.length := by decide
  have hfree : ∀ s ∈ entries, ',' ∉ s := by decide
  have hdata : (Text.join ',' entries).trimStart.startsWith "data:".toList = false := by decide
  have halone : List.Forall₂ (fun s s' => RewritesTo lookup site (',' :: s) (',' :: s')) entries
      [" /é/a.webp?v=2 1x".toList, "\tü".toList, "./keep.jpg 2x".toList, "/é/a.webp".toList] := by
    refine .cons ?_ (.cons ?_ (.cons ?_ (.cons ?_ .nil)))
    all_goals
      rw [RewritesTo]
      decide +kernel
  obtain ⟨entries', heach, hall⟩ := rewritesTo_join lookup site htwo hfree hdata
  have hsame := List.right_unique_forall₂' (fun s t u ht hu => by
    have hboth : some (',' :: t) = some (',' :: u) := ht.symm.trans hu
    simpa using hboth) heach halone
  rw [hsame] at hall
  exact ⟨htwo, hfree, hdata, hall⟩

end ImageMigration.Reference
