/-
Splices, put together and taken apart.

A splice of one text behind a splice of another is a splice of both, and a splice whose edits do not
cross a seam comes apart there. So edits of parts of a text may be told as edits of the text, and an
edit may be told by the edits that make up its replacement.

* `Edit.Spliced.append`, `Edit.Spliced.exists_append`: seams;
* `Edit.Spliced.exists_refined`: **edits are exchanged for the edits of their pieces**;
* `Edit.Spliced.exists_within`: what a splice does to a stretch of the text;
* `Edit.Spliced.applyAll?_eq`: application gives the splice of the same edits, in whatever order
  they are given.
-/
import Mathlib.Data.List.Perm.Basic
import ImageMigration.Proofs.Edit.Apply

namespace ImageMigration.Edit

open Text (IsAt)

variable {t t' u u' piece : Text} {edits edits' : List Edit} {d e : Edit} {offset : Nat}

lemma shift_shift (m n : Nat) (e : Edit) : (e.shift n).shift m = e.shift (m + n) := by
  simp only [shift, Edit.mk.injEq, and_true]
  omega

/-- The edits of a splice come from the back to the front. -/
lemma Spliced.descending (h : Spliced t edits t') : Descending edits := by
  induction h with
  | nil t => exact List.Pairwise.nil
  | cons hstart hstop hfront ih =>
      refine List.pairwise_cons.mpr ⟨fun d hd => ?_, ih⟩
      have hle := (hfront.stop_le hd).2
      omega

/-! ### Seams -/

/-- Two splices, one behind the other. -/
lemma Spliced.append (h : Spliced t edits t') (h' : Spliced u edits' u') :
    Spliced (t ++ u) (edits'.map (shift t.bytes) ++ edits) (t' ++ u') := by
  induction h' with
  | nil u =>
      cases h with
      | nil t => exact .nil _
      | @cons e edits front piece back front' hstart hstop hfront =>
          have hlong : Spliced (front ++ piece ++ (back ++ u)) (e :: edits)
              (front' ++ e.replacement ++ (back ++ u)) := .cons hstart hstop hfront
          simpa using hlong
  | @cons e edits' front piece back front' hstart hstop hfront ih =>
      have hlong : Spliced ((t ++ front) ++ piece ++ back)
          (e.shift t.bytes :: (edits'.map (shift t.bytes) ++ edits))
          ((t' ++ front') ++ (e.shift t.bytes).replacement ++ back) :=
        .cons (by simp [shift, hstart]) (by simp only [shift]; omega) ih
      simpa [shift] using hlong

/-- Edits inside of a text between two marks of one byte. -/
lemma Spliced.between {mark : Char} (hmark : mark.utf8Size = 1) (h : Spliced t edits t') :
    Spliced (mark :: t ++ [mark]) (edits.map (shift 1)) (mark :: t' ++ [mark]) := by
  have hone : Text.bytes [mark] = 1 := by rw [Text.bytes_cons, Text.bytes_nil, hmark]
  have hsplice := ((Spliced.nil [mark]).append h).append (.nil [mark])
  rw [hone] at hsplice
  simpa using hsplice

/-- One edit of a whole text. -/
lemma spliced_whole (t t' : Text) : Spliced t [⟨0, t.bytes, t'⟩] t' := by
  have hall : Spliced ([] ++ t ++ []) [⟨0, t.bytes, t'⟩] ([] ++ t' ++ []) :=
    .cons rfl (Nat.zero_add _) (.nil [])
  simpa using hall

/-- A splice whose edits do not cross a seam comes apart there. -/
lemma Spliced.exists_append {x : Text} (h : Spliced (t ++ u) edits x)
    (hseam : ∀ e ∈ edits, e.stop ≤ t.bytes ∨ t.bytes ≤ e.start) :
    ∃ front back t' u', edits = back.map (shift t.bytes) ++ front ∧ Spliced t front t' ∧
      Spliced u back u' ∧ x = t' ++ u' := by
  generalize hs : t ++ u = s at h
  induction h generalizing u with
  | nil s => exact ⟨[], [], t, u, rfl, .nil t, .nil u, hs.symm⟩
  | @cons e edits front piece back front' hstart hstop hfront ih =>
      by_cases hbehind : t.bytes ≤ e.start
      · -- the edit stands behind the seam, and the rest of the splice goes on around it
        obtain ⟨between, rfl, hu⟩ := Text.exists_append_of_bytes_le
          (show t ++ u = front ++ (piece ++ back) by rw [hs, List.append_assoc]) (by omega)
        obtain ⟨es, es', t', u', hedits, ht, hu', rfl⟩ :=
          ih (fun d hd => hseam d (by simp [hd])) rfl
        have hcut : e
            = (⟨e.start - t.bytes, e.stop - t.bytes, e.replacement⟩ : Edit).shift t.bytes := by
          cases e
          simp only [shift, Edit.mk.injEq, and_true] at hstop hbehind ⊢
          omega
        refine ⟨es, ⟨e.start - t.bytes, e.stop - t.bytes, e.replacement⟩ :: es', t',
          u' ++ e.replacement ++ back, ?_, ht, ?_, by simp⟩
        · rw [List.map_cons, List.cons_append, ← hcut, hedits]
        · rw [hu, ← List.append_assoc]
          refine .cons ?_ ?_ hu'
          · rw [Text.bytes_append] at hstart
            simp only
            omega
          · simp only
            omega
      · -- the edit stands in front of the seam, and so do the others
        have hend : e.stop ≤ t.bytes := (hseam e (by simp)).resolve_right hbehind
        obtain ⟨rest, rfl, rfl⟩ := Text.exists_append_of_bytes_le
          (show (front ++ piece) ++ back = t ++ u from hs.symm) (by
            rw [Text.bytes_append]
            omega)
        exact ⟨e :: edits, [], front' ++ e.replacement ++ rest, u, rfl,
          .cons hstart hstop hfront, .nil u, by simp⟩

/-- The text in front of a seam takes the length that the edits in front of it give. -/
lemma Spliced.bytes_eq_moved {back : List Edit} (h : Spliced t edits t')
    (hback : ∀ e ∈ back, t.bytes < e.stop) : t'.bytes = moved (back ++ edits) t.bytes := by
  have hin : edits.filter (fun e => decide (e.stop ≤ t.bytes)) = edits :=
    List.filter_eq_self.mpr fun e he => by simpa using (h.stop_le he).2
  have hout : back.filter (fun e => decide (e.stop ≤ t.bytes)) = [] :=
    List.filter_eq_nil_iff.mpr fun e he => by simpa using hback e he
  have hbytes := h.bytes_eq
  simp only [moved, List.filter_append, hin, hout, List.nil_append]
  omega

/-- **What a splice does to a stretch of the text** whose ends no edit crosses: the edits inside of
it are carried out there, and the stretch is moved by the edits in front of it. -/
lemma Spliced.exists_within (h : Spliced t edits t') (hlt : ∀ e ∈ edits, e.start < e.stop)
    (hat : IsAt t offset piece)
    (hends : ∀ e ∈ edits, e.stop ≤ offset ∨ offset + piece.bytes ≤ e.start ∨
      offset ≤ e.start ∧ e.stop ≤ offset + piece.bytes) :
    ∃ inner piece', Spliced piece inner piece' ∧ IsAt t' (moved edits offset) piece' ∧
      ∀ e, e ∈ inner.map (shift offset) ↔
        e ∈ edits ∧ offset ≤ e.start ∧ e.stop ≤ offset + piece.bytes := by
  obtain ⟨a, b, rfl, rfl⟩ := hat
  rw [List.append_assoc] at h
  obtain ⟨before, rest, a', x, rfl, ha, hrest, rfl⟩ := h.exists_append fun e he => by
    rcases hends e he with h | h | h <;> omega
  have hrestlt : ∀ e ∈ rest, e.start < e.stop := by
    intro e he
    have hpos := hlt _ (List.mem_append_left before (List.mem_map_of_mem he))
    simp only [shift] at hpos
    omega
  obtain ⟨inner, behind, piece', b', rfl, hinner, -, rfl⟩ := hrest.exists_append fun e he => by
    have hcase := hends _ (List.mem_append_left before (List.mem_map_of_mem he))
    have hpos := hrestlt e he
    simp only [shift] at hcase
    omega
  refine ⟨inner, piece', hinner, ⟨a', b', by simp, ?_⟩, fun e => ⟨fun he => ?_, ?_⟩⟩
  · refine ha.bytes_eq_moved fun e he => ?_
    obtain ⟨d, hd, rfl⟩ := List.mem_map.mp he
    have hpos := hrestlt d hd
    simp only [shift]
    omega
  · obtain ⟨d, hd, rfl⟩ := List.mem_map.mp he
    have hle := hinner.stop_le hd
    refine ⟨List.mem_append_left _ (List.mem_map_of_mem (List.mem_append_right _ hd)), ?_⟩
    simp only [shift]
    omega
  · rintro ⟨he, hstart, hstop⟩
    have hpos := hlt e he
    rcases List.mem_append.mp he with he | he
    · rw [List.map_append, List.mem_append] at he
      refine he.resolve_left fun hfar => ?_
      obtain ⟨d, hd, rfl⟩ := List.mem_map.mp hfar
      obtain ⟨c, hc, rfl⟩ := List.mem_map.mp hd
      simp only [shift] at hstart hstop hpos
      omega
    · have hle := (ha.stop_le he).2
      omega

/-! ### Edits for edits -/

/-- **An edit may be exchanged for the edits of its piece** that give its replacement. -/
lemma Spliced.exists_refined (h : Spliced t edits t') (Part : Edit → Edit → Prop)
    (hparts : ∀ e ∈ edits, ∀ piece, IsAt t e.start piece → e.start + piece.bytes = e.stop →
      ∃ inner, Spliced piece inner e.replacement ∧ ∀ d, d ∈ inner.map (shift e.start) ↔ Part e d) :
    ∃ fine, Spliced t fine t' ∧ ∀ d, d ∈ fine ↔ ∃ e ∈ edits, Part e d := by
  induction h with
  | nil t => exact ⟨[], .nil t, by simp⟩
  | @cons e edits front piece back front' hstart hstop hfront ih =>
      obtain ⟨fine, hfine, hmem⟩ := ih fun d hd m hat hend =>
        hparts d (by simp [hd]) m ((hat.append_right piece).append_right back) hend
      obtain ⟨inner, hinner, hpart⟩ := hparts e (by simp) piece ⟨front, back, rfl, hstart⟩ hstop
      rw [← hstart] at hpart
      refine ⟨inner.map (shift front.bytes) ++ fine, ?_, fun d => ?_⟩
      · simpa using (hfine.append hinner).append (.nil back)
      · rw [List.mem_append, hpart, hmem]
        simp

/-! ### Orders -/

/-- Edits from the back to the front are told by which they are. -/
lemma Descending.eq_of_mem_iff (h : Descending edits) (h' : Descending edits')
    (hlt : ∀ e ∈ edits, e.start < e.stop) (hmem : ∀ e, e ∈ edits ↔ e ∈ edits') :
    edits = edits' := by
  have hlt' : ∀ e ∈ edits', e.start < e.stop := fun e he => hlt e ((hmem e).mpr he)
  have hsorted : ∀ {es : List Edit}, Descending es → (∀ e ∈ es, e.start < e.stop) →
      es.Pairwise fun d e => e.start < d.start := by
    intro es hes hpos
    refine List.Pairwise.imp_of_mem (fun {d e} hd he hde => ?_) hes
    have := hpos e he
    omega
  have hnodup : ∀ {es : List Edit}, (es.Pairwise fun d e => e.start < d.start) → es.Nodup :=
    fun hes => hes.imp fun {d e} hde heq => by
      rw [heq] at hde
      omega
  have hperm : edits.Perm edits' := (List.perm_ext_iff_of_nodup (hnodup (hsorted h hlt))
    (hnodup (hsorted h' hlt'))).mpr hmem
  refine hperm.eq_of_pairwise (fun d e _ _ hde hed => ?_) (hsorted h hlt) (hsorted h' hlt')
  omega

/-- **Application gives the splice** of the edits, in whatever order they are given. -/
lemma Spliced.applyAll?_eq (h : Spliced t edits t') (hfits : ∀ e ∈ edits', Fits t e)
    (hagree : Agree edits') (hmem : ∀ e, e ∈ edits ↔ e ∈ edits') :
    applyAll? t edits' = some t' := by
  have hsame : edits = applied t edits' := by
    refine h.descending.eq_of_mem_iff (descending_kept _ _)
      (fun e he => (hfits e ((hmem e).mp he)).lt) fun e => ?_
    rw [hmem, mem_applied_iff hfits hagree]
  have hfold := foldlM_replace?_append h []
  rw [List.append_nil, List.append_nil, hsame] at hfold
  exact hfold

end ImageMigration.Edit
