/-
A value is rewritten once and for all.

With its exchanges made, a value falls into the same words as before, at places that the exchanges in
front of them have moved. A new extension ends no image, so the references that are left are those
that no new image was found for.

* `Reference.Settles`: what the exchanges of a value leave;
* `Reference.exists_settles`: **every value is left so.**
-/
import ImageMigration.Proofs.Plan.Reread

namespace ImageMigration.Reference

/-- The second value is the first one with its exchanges made. Its references are those of the first
one that no new image was found for: in their order, with their paths and queries, and moved by the
exchanges in front of them. Nothing is left to be exchanged, so that it stays as it is when its
exchanges are made again. -/
structure Settles (lookup : Lookup) (site : Site) (value value' : Text) : Prop where
  exchanged : Edit.applyAll? value (valueEdits lookup site value) = some value'
  references : ofValue value' = ((ofValue value).filter fun r => (lookup.match? r site).isNone).map
    (movedBy (valueEdits lookup site value))
  nothing_left : valueEdits lookup site value' = []
  stays : Edit.applyAll? value' (valueEdits lookup site value') = some value'

/-- **Every value is rewritten once and for all,** if the new images have extensions that are words
of letters and end no image. -/
theorem exists_settles (lookup : Lookup) (hlookup : lookup.HasPlainExtensions) (site : Site)
    (value : Text) : ∃ value', Settles lookup site value value' := by
  have hnothing : valueEdits lookup site (rewritten lookup site value) = [] :=
    valueEdits_rewritten_eq_nil hlookup fun entry hentry => ⟨entry.2, hentry⟩
  refine ⟨rewritten lookup site value, ?_, ofValue_rewritten hlookup site value, hnothing, ?_⟩
  · exact Literal.applyAll?_valueEdits (spliced_rewritten lookup site value)
  · rw [hnothing]
    exact Edit.applyAll?_nil _

/-- In a source set with white space and a query, one of two references is exchanged. The other one
is found again, one byte further behind. -/
theorem exists_settles_source_set :
    let lookup : Lookup :=
      [(⟨"/repo/public/é/a.png".toList⟩, ⟨"/repo/public/é/a.webp".toList⟩)]
    let site : Site := ⟨⟨"/repo".toList⟩, ⟨"/repo/src/home.ts".toList⟩⟩
    lookup.HasPlainExtensions ∧
      Settles lookup site " /é/a.png?v=2 1x,\t./keep.jpg 2x".toList
        " /é/a.webp?v=2 1x,\t./keep.jpg 2x".toList ∧
      (ofValue " /é/a.webp?v=2 1x,\t./keep.jpg 2x".toList).map
        (fun r => (r.raw, r.offset)) = [("./keep.jpg".toList, 20)] := by
  intro lookup site
  have hlookup : lookup.HasPlainExtensions := by
    intro entry hentry
    rw [List.mem_singleton.mp hentry]
    exact ⟨"webp".toList, by decide +kernel, isPlainExtension_webp⟩
  obtain ⟨value', hsettles⟩ :=
    exists_settles lookup hlookup site " /é/a.png?v=2 1x,\t./keep.jpg 2x".toList
  have hedits : valueEdits lookup site " /é/a.png?v=2 1x,\t./keep.jpg 2x".toList
      = [⟨6, 10, ".webp".toList⟩] := by decide +kernel
  have hvalue : some value' = some " /é/a.webp?v=2 1x,\t./keep.jpg 2x".toList := by
    rw [← hsettles.exchanged, hedits]
    decide +kernel
  rw [Option.some.injEq] at hvalue
  rw [hvalue] at hsettles
  refine ⟨hlookup, hsettles, ?_⟩
  rw [hsettles.references, hedits]
  decide +kernel

end ImageMigration.Reference
