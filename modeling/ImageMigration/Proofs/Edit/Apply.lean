/-
What edits do to a text when they keep apart.

Application runs from the back to the front. It keeps an edit unless it reaches into a range that
was replaced before, so that edits which agree are all kept, an edit that is given twice once.

* `Edit.Spans`, `Edit.Fits`, `Edit.Agree`: edits of pieces of a text, that replace something, and
  that keep apart;
* `Edit.mem_applied_iff`: **of edits that agree, all are applied**;
* `Edit.Spliced`: a text with pieces exchanged; `Edit.applyAll?_of_fits`: application gives it;
* `Edit.Spliced.isAt_moved`, `Edit.Spliced.isAt_replacement`: where the pieces between the edits,
  and the replacements, stand afterwards.
-/
import Mathlib.Tactic.Common
import Mathlib.Data.List.Perm.Basic
import ImageMigration.Edit
import ImageMigration.Proofs.Text.Cut

namespace ImageMigration.Edit

open Text (IsAt)

/-- The edit replaces at least one character of the text, and no part of one. -/
def Fits (t : Text) (e : Edit) : Prop :=
  ∃ piece : Text, piece ≠ [] ∧ IsAt t e.start piece ∧ e.start + piece.bytes = e.stop

/-- The range of the edit is a piece of the text. -/
def Spans (t : Text) (e : Edit) : Prop :=
  ∃ piece : Text, IsAt t e.start piece ∧ e.start + piece.bytes = e.stop

/-- The ranges of two edits do not meet. -/
def Apart (d e : Edit) : Prop := d.stop ≤ e.start ∨ e.stop ≤ d.start

/-- Any two of the edits are the same or keep apart. -/
def Agree (edits : List Edit) : Prop := ∀ d ∈ edits, ∀ e ∈ edits, d = e ∨ Apart d e

/-- The edits come from the back to the front of a text. -/
def Descending (edits : List Edit) : Prop := edits.Pairwise fun d e => e.stop ≤ d.start

/-- The edits that are applied to a text. -/
def applied (t : Text) (edits : List Edit) : List Edit := kept t.bytes (inOrder edits)

variable {t t' : Text} {edits : List Edit} {d e : Edit} {limit : Nat}

lemma Fits.spans (h : Fits t e) : Spans t e := by
  obtain ⟨piece, -, hat, hstop⟩ := h
  exact ⟨piece, hat, hstop⟩

lemma Fits.lt (h : Fits t e) : e.start < e.stop := by
  obtain ⟨piece, hne, -, hstop⟩ := h
  have hpos := Text.bytes_pos hne
  omega

lemma Fits.le_bytes (h : Fits t e) : e.stop ≤ t.bytes := by
  obtain ⟨piece, -, hat, hstop⟩ := h
  have hle := hat.le_bytes
  omega

/-! ### The edits that are kept -/

lemma mem_inOrder : e ∈ inOrder edits ↔ e ∈ edits := (List.mergeSort_perm _ _).mem_iff

lemma pairwise_inOrder (edits : List Edit) :
    (inOrder edits).Pairwise fun d e => e.start ≤ d.start := by
  have hsorted := @List.pairwise_mergeSort Edit (fun d e => decide (e.start ≤ d.start))
    (fun a b c hab hbc => by
      simp only [decide_eq_true_eq] at hab hbc ⊢
      omega)
    (fun a b => by
      simp only [Bool.or_eq_true, decide_eq_true_eq]
      omega) edits
  exact hsorted.imp fun h => by simpa using h

lemma isBlocked_eq_false_iff : e.isBlocked limit = false ↔ e.start ≤ e.stop ∧ e.stop ≤ limit := by
  simp only [isBlocked, Bool.or_eq_false_iff, decide_eq_false_iff_not]
  omega

lemma mem_of_mem_kept (h : e ∈ kept limit edits) : e ∈ edits := by
  induction edits generalizing limit with
  | nil => exact h
  | cons d edits ih =>
      rw [kept] at h
      split at h
      · exact List.mem_cons_of_mem _ (ih h)
      · rcases List.mem_cons.mp h with rfl | hrest
        · exact List.mem_cons_self
        · exact List.mem_cons_of_mem _ (ih hrest)

/-- A kept edit ends in front of the limit. -/
lemma le_of_mem_kept (h : e ∈ kept limit edits) : e.start ≤ e.stop ∧ e.stop ≤ limit := by
  induction edits generalizing limit with
  | nil => exact absurd h (by simp [kept])
  | cons d edits ih =>
      rw [kept] at h
      split at h
      · exact ih h
      · next hfree =>
        rw [Bool.not_eq_true, isBlocked_eq_false_iff] at hfree
        rcases List.mem_cons.mp h with rfl | hrest
        · exact hfree
        · have hle := ih hrest
          omega

lemma descending_kept (limit : Nat) (edits : List Edit) : Descending (kept limit edits) := by
  induction edits generalizing limit with
  | nil => exact List.Pairwise.nil
  | cons d edits ih =>
      rw [kept]
      split
      · exact ih limit
      · exact List.pairwise_cons.mpr ⟨fun e he => (le_of_mem_kept he).2, ih d.start⟩

/-- Of edits from the last start to the first that agree, each is kept. A copy of a kept edit is
blocked, but then the edit is kept already. -/
lemma mem_kept (hsorted : edits.Pairwise fun d e => e.start ≤ d.start) (hagree : Agree edits)
    (hlt : ∀ d ∈ edits, d.start < d.stop) (he : e ∈ edits) (hlimit : e.stop ≤ limit) :
    e ∈ kept limit edits := by
  induction edits generalizing limit with
  | nil => exact he
  | cons d edits ih =>
      obtain ⟨hfirst, hrest⟩ := List.pairwise_cons.mp hsorted
      have ih' : ∀ n, e ∈ edits → e.stop ≤ n → e ∈ kept n edits := fun n hmem hn =>
        ih hrest (fun x hx y hy => hagree x (by simp [hx]) y (by simp [hy]))
          (fun x hx => hlt x (by simp [hx])) hmem hn
      have hd := hlt d (by simp)
      rw [kept]
      cases hblock : d.isBlocked limit with
      | true =>
          simp only [if_true]
          rcases List.mem_cons.mp he with rfl | hmem
          · have hfree := isBlocked_eq_false_iff.mpr ⟨Nat.le_of_lt hd, hlimit⟩
            rw [hfree] at hblock
            exact absurd hblock (by simp)
          · exact ih' limit hmem hlimit
      | false =>
          simp only [Bool.false_eq_true, if_false]
          rcases List.mem_cons.mp he with rfl | hmem
          · exact List.mem_cons_self
          · rcases hagree d (by simp) e he with rfl | happart | happart
            · exact List.mem_cons_self
            · have hstart := hfirst e hmem
              omega
            · exact List.mem_cons_of_mem _ (ih' d.start hmem happart)

lemma mem_of_mem_applied (h : e ∈ applied t edits) : e ∈ edits :=
  mem_inOrder.mp (mem_of_mem_kept h)

/-- **Of edits that agree, all are applied.** -/
lemma mem_applied_iff (hfits : ∀ e ∈ edits, Fits t e) (hagree : Agree edits) :
    e ∈ applied t edits ↔ e ∈ edits := by
  refine ⟨mem_of_mem_applied, fun he => ?_⟩
  refine mem_kept (pairwise_inOrder edits) ?_ ?_ (mem_inOrder.mpr he) (hfits e he).le_bytes
  · intro x hx y hy
    exact hagree x (mem_inOrder.mp hx) y (mem_inOrder.mp hy)
  · intro x hx
    exact (hfits x (mem_inOrder.mp hx)).lt

@[simp] lemma applied_nil (t : Text) : applied t [] = [] := by
  simp [applied, inOrder, kept]

@[simp] lemma applyAll?_nil (t : Text) : applyAll? t [] = some t := by
  simp [applyAll?, inOrder, kept]

/-! ### Texts with pieces exchanged -/

/-- The second text is the first with the pieces of some edits, from the back to the front,
exchanged for their replacements. -/
inductive Spliced : Text → List Edit → Text → Prop where
  | nil (t : Text) : Spliced t [] t
  | cons {e : Edit} {edits : List Edit} {front piece back front' : Text}
      (hstart : front.bytes = e.start) (hstop : e.start + piece.bytes = e.stop)
      (hfront : Spliced front edits front') :
      Spliced (front ++ piece ++ back) (e :: edits) (front' ++ e.replacement ++ back)

/-- Edits of pieces of a text that keep apart can be carried out. -/
lemma exists_spliced (hdesc : Descending edits) (hspans : ∀ e ∈ edits, Spans t e) :
    ∃ t', Spliced t edits t' := by
  induction edits generalizing t with
  | nil => exact ⟨t, .nil t⟩
  | cons e edits ih =>
      obtain ⟨hbefore, hrest⟩ := List.pairwise_cons.mp hdesc
      obtain ⟨piece, ⟨front, back, rfl, hstart⟩, hstop⟩ := hspans e (by simp)
      have hinner : ∀ d ∈ edits, Spans front d := by
        intro d hd
        obtain ⟨m, ⟨a, b, ht, ha⟩, hend⟩ := hspans d (by simp [hd])
        have hle := hbefore d hd
        have hcut : a ++ m ++ b = front ++ (piece ++ back) := by rw [← ht, List.append_assoc]
        obtain ⟨b', hb', -⟩ := Text.exists_append_of_bytes_le hcut (by
          rw [Text.bytes_append]
          omega)
        exact ⟨m, ⟨a, b', hb', ha⟩, hend⟩
      obtain ⟨front', hfront'⟩ := ih hrest hinner
      exact ⟨_, .cons hstart hstop hfront'⟩

lemma replace?_append {front piece back : Text} (hstart : front.bytes = e.start)
    (hstop : e.start + piece.bytes = e.stop) :
    replace? (front ++ piece ++ back) e = some (front ++ e.replacement ++ back) := by
  have hcut : (front ++ piece ++ back).splitAt? e.start = some (front, piece ++ back) := by
    rw [← hstart, List.append_assoc, Text.splitAt?_append]
  have hcut' : Text.splitAt? (e.stop - e.start) (piece ++ back) = some (piece, back) := by
    rw [← hstop, Nat.add_sub_cancel_left, Text.splitAt?_append]
  rw [replace?, hcut]
  simp only [Option.bind_eq_bind, Option.bind_some, hcut']

/-- Carrying out edits one after the other does not touch what stands behind the text. -/
lemma foldlM_replace?_append (h : Spliced t edits t') (behind : Text) :
    edits.foldlM replace? (t ++ behind) = some (t' ++ behind) := by
  induction h generalizing behind with
  | nil t => rfl
  | @cons e edits front piece back front' hstart hstop hfront ih =>
      have hstep : replace? (front ++ piece ++ back ++ behind) e
          = some (front ++ (e.replacement ++ back ++ behind)) := by
        rw [List.append_assoc (front ++ piece), replace?_append hstart hstop]
        simp
      rw [List.foldlM_cons, hstep, Option.bind_eq_bind, Option.bind_some, ih]
      simp

/-- **Edits that fit can be applied,** and give the text with the applied ones exchanged. -/
lemma applyAll?_of_fits (hfits : ∀ e ∈ edits, Fits t e) :
    ∃ t', applyAll? t edits = some t' ∧ Spliced t (applied t edits) t' := by
  obtain ⟨t', ht'⟩ := exists_spliced (descending_kept t.bytes (inOrder edits))
    fun e he => (hfits e (mem_of_mem_applied he)).spans
  refine ⟨t', ?_, ht'⟩
  have hfold := foldlM_replace?_append ht' []
  rwa [List.append_nil, List.append_nil] at hfold

/-! ### Where things stand afterwards -/

/-- The bytes that edits put in. -/
def bytesIn : List Edit → Nat
  | [] => 0
  | e :: edits => e.replacement.bytes + bytesIn edits

/-- The bytes that edits take out. -/
def bytesOut : List Edit → Nat
  | [] => 0
  | e :: edits => e.stop - e.start + bytesOut edits

/-- Where an offset between the edits comes to lie: each edit in front of it moves it by the growth
of its piece. -/
def moved (edits : List Edit) (offset : Nat) : Nat :=
  let before := edits.filter fun e => e.stop ≤ offset
  offset + bytesIn before - bytesOut before

@[simp] lemma moved_nil (offset : Nat) : moved [] offset = offset := rfl

lemma bytesIn_eq_of_perm {edits' : List Edit} (h : edits.Perm edits') :
    bytesIn edits = bytesIn edits' := by
  induction h with
  | nil => rfl
  | cons e _ ih => rw [bytesIn, bytesIn, ih]
  | swap d e edits => simp only [bytesIn]; omega
  | trans _ _ ih ih' => exact ih.trans ih'

lemma bytesOut_eq_of_perm {edits' : List Edit} (h : edits.Perm edits') :
    bytesOut edits = bytesOut edits' := by
  induction h with
  | nil => rfl
  | cons e _ ih => rw [bytesOut, bytesOut, ih]
  | swap d e edits => simp only [bytesOut]; omega
  | trans _ _ ih ih' => exact ih.trans ih'

/-- The order of the edits does not tell where an offset comes to lie. -/
lemma moved_eq_of_perm {edits' : List Edit} (h : edits.Perm edits') (offset : Nat) :
    moved edits offset = moved edits' offset := by
  have hbefore := h.filter fun e => decide (e.stop ≤ offset)
  simp only [moved, bytesIn_eq_of_perm hbefore, bytesOut_eq_of_perm hbefore]

/-- The bytes that edits put in and take out balance. -/
lemma Spliced.bytes_eq (h : Spliced t edits t') :
    t'.bytes + bytesOut edits = t.bytes + bytesIn edits := by
  induction h with
  | nil t => rfl
  | cons hstart hstop hfront ih =>
      simp only [bytesIn, bytesOut, Text.bytes_append]
      omega

/-- The edits of a text end in it. -/
lemma Spliced.stop_le (h : Spliced t edits t') (he : e ∈ edits) :
    e.start ≤ e.stop ∧ e.stop ≤ t.bytes := by
  induction h with
  | nil t => exact absurd he (by simp)
  | cons hstart hstop hfront ih =>
      simp only [Text.bytes_append]
      rcases List.mem_cons.mp he with rfl | hrest
      · omega
      · have hle := ih hrest
        omega

/-- Behind all edits an offset moves by the growth of the text. -/
lemma Spliced.moved_of_bytes_le (h : Spliced t edits t') {offset : Nat} (hle : t.bytes ≤ offset) :
    moved edits offset + t.bytes = t'.bytes + offset := by
  have hall : edits.filter (fun e => decide (e.stop ≤ offset)) = edits := by
    rw [List.filter_eq_self]
    intro e he
    have hstop := (h.stop_le he).2
    simp only [decide_eq_true_eq]
    omega
  have hbytes := h.bytes_eq
  simp only [moved, hall]
  omega

lemma moved_cons_of_lt {offset : Nat} (h : offset < e.stop) :
    moved (e :: edits) offset = moved edits offset := by
  have hno : ¬ e.stop ≤ offset := by omega
  simp only [moved, List.filter_cons, hno, decide_false, Bool.false_eq_true, if_false]

/-- A piece that no edit touches stands in the edited text, moved by the edits in front of it. -/
lemma Spliced.isAt_moved (h : Spliced t edits t') {offset : Nat} {piece : Text}
    (hat : IsAt t offset piece)
    (hout : ∀ e ∈ edits, e.stop ≤ offset ∨ offset + piece.bytes ≤ e.start) :
    IsAt t' (moved edits offset) piece := by
  induction h with
  | nil t => exact hat
  | @cons e edits front m back front' hstart hstop hfront ih =>
      obtain ⟨a, b, ht, ha⟩ := hat
      by_cases hbefore : e.stop ≤ offset
      · -- the piece stands behind the edit, and so behind all of them
        obtain ⟨a', ha', hback⟩ := Text.exists_append_of_bytes_le
          (show (front ++ m) ++ back = a ++ (piece ++ b) by rw [ht, List.append_assoc])
          (by
            rw [Text.bytes_append]
            omega)
        refine ⟨front' ++ e.replacement ++ a', b, by simp [hback], ?_⟩
        have hsum : Spliced (front ++ m ++ []) (e :: edits) (front' ++ e.replacement ++ []) :=
          .cons hstart hstop hfront
        rw [List.append_nil, List.append_nil] at hsum
        have hlast : (front ++ m).bytes ≤ offset := by
          rw [Text.bytes_append]
          omega
        have hmoved := hsum.moved_of_bytes_le hlast
        have hlen : a.bytes = (front ++ m).bytes + a'.bytes := by rw [ha', Text.bytes_append]
        rw [Text.bytes_append]
        omega
      · have hafter := (hout e (by simp)).resolve_left hbefore
        obtain ⟨b', hb', -⟩ := Text.exists_append_of_bytes_le
          (show (a ++ piece) ++ b = front ++ (m ++ back) by rw [← ht, List.append_assoc])
          (by
            rw [Text.bytes_append]
            omega)
        have hfar := ih ⟨a, b', hb', ha⟩ fun d hd => hout d (by simp [hd])
        rw [moved_cons_of_lt (by omega), List.append_assoc]
        exact hfar.append_right _

/-- The replacement of an edit stands where its piece stood, moved by the edits in front of it. -/
lemma Spliced.isAt_replacement (h : Spliced t edits t') (he : e ∈ edits) (hlt : e.start < e.stop) :
    IsAt t' (moved edits e.start) e.replacement := by
  induction h with
  | nil t => exact absurd he (by simp)
  | @cons d edits front m back front' hstart hstop hfront ih =>
      rcases List.mem_cons.mp he with rfl | hrest
      · rw [moved_cons_of_lt hlt]
        refine ⟨front', back, rfl, ?_⟩
        have hmoved := hfront.moved_of_bytes_le (Nat.le_of_eq hstart)
        omega
      · have hend := (hfront.stop_le hrest).2
        rw [moved_cons_of_lt (by omega), List.append_assoc]
        exact (ih hrest).append_right _

end ImageMigration.Edit
