/-
Places of paths in a tree without links, and what operations do there.

In such a tree the path of a place can denote that place only. What an operation then reads or
changes is the entry at the place; that the walk gets there at all hangs on the directories above.

* `Disk.resolve?_pathOf`: the path of a place denotes the place, if anything;
* `Disk.resolve?_congr`: the walk to a place looks at the entries on its way only;
* `Disk.read?_pathOf`, `Disk.size?_pathOf`: what is read is what stands there;
* `Disk.write?_pathOf`, `Disk.remove?_pathOf`: the tree after a file was written or removed;
* `Disk.isTree_write?`, `Disk.isTree_remove?`: it is a tree again;
* `Disk.not_write?_pathOf_dots`: no file can be written at a path that leads up at its end.
-/
import ImageMigration.Proofs.Disk.Entry

namespace ImageMigration.Disk

variable {d d' : Disk} {follow : Bool} {here l l' : Location}

/-! ### Walks -/

lemma checkEnter_congr (h : d'.node? l = d.node? l) : d'.checkEnter l = d.checkEnter l := by
  rw [checkEnter, checkEnter, h]

/-- A walk along names enters the directories on its way, and goes on from behind them. -/
lemma walk_append (hd : d.HasNoLinks) {names rest : List Text} (hn : AreNames names) {s : Stop}
    (h : d.walk follow here (names ++ rest) = .ok s) :
    d.walk follow (here ++ names) rest = .ok s ∧
      ∀ k < names.length, d.checkEnter (here ++ names.take k) = .ok () := by
  induction names generalizing here with
  | nil => exact ⟨by simpa using h, by simp⟩
  | cons name names ih =>
      have hname := hn name (by simp)
      have hnames : AreNames names := fun m hm => hn m (List.mem_cons_of_mem _ hm)
      rw [List.cons_append, walk] at h
      cases hent : d.checkEnter here with
      | error e => rw [hent] at h; exact absurd h (by simp)
      | ok u =>
          rw [hent] at h
          simp only [hname.not_silent, Bool.false_eq_true, if_false, if_neg hname.ne_dots] at h
          have hgo : d.walk follow (here ++ [name]) (names ++ rest) = .ok s := by
            cases hnode : d.node? (here ++ [name]) with
            | none =>
                rw [hnode] at h
                by_cases hend : names ++ rest = []
                · rw [hend]
                  simpa [hend, walk] using h
                · simp [hend] at h
            | some n =>
                rw [hnode] at h
                have hlink := hd _ _ hnode
                split at h
                · next hc => exact absurd hc (by simp)
                · next target perms hc =>
                  simp only [Option.some.injEq] at hc
                  rw [hc] at hlink
                  simp [Node.isLink] at hlink
                · exact h
          obtain ⟨hwalk, henter⟩ := ih hnames hgo
          refine ⟨by simpa using hwalk, fun k hk => ?_⟩
          cases k with
          | zero => simpa using hent
          | succ k => simpa using henter k (by simpa using hk)

/-- The walk to a place looks at the entries on its way only. -/
lemma walk_congr {names : List Text} (hn : AreNames names)
    (h : ∀ k ≤ names.length, d'.node? (here ++ names.take k) = d.node? (here ++ names.take k)) :
    d'.walk follow here names = d.walk follow here names := by
  induction names generalizing here with
  | nil => rfl
  | cons name names ih =>
      have hname := hn name (by simp)
      have hhere : d'.node? here = d.node? here := by simpa using h 0 (by simp)
      have hnext : d'.node? (here ++ [name]) = d.node? (here ++ [name]) := by
        simpa using h 1 (by simp)
      have hrest : d'.walk follow (here ++ [name]) names = d.walk follow (here ++ [name]) names :=
        ih (fun m hm => hn m (List.mem_cons_of_mem _ hm))
          fun k hk => by simpa using h (k + 1) (by simpa using hk)
      rw [walk, walk, checkEnter_congr hhere, hnext, hrest]
      simp only [hname.not_silent, Bool.false_eq_true, if_false, if_neg hname.ne_dots]

lemma walk_root (names : List Text) : d.walk follow [] ([] :: names) = d.walk follow [] names := by
  have hent : d.checkEnter [] = .ok () :=
    checkEnter_eq_ok_iff.mpr ⟨_, node?_nil d, rfl, rfl⟩
  rw [walk, hent]
  rfl

lemma split_text_pathOf (h : ∀ n ∈ l, '/' ∉ n) (hl : l ≠ []) :
    Text.split '/' (pathOf l).text = [] :: l := by
  have hcut : Text.split '/' (pathOf l).text = [] :: Text.split '/' (Text.join '/' l) := rfl
  rw [hcut, Text.split_join hl h]

/-- Where the walk to the path of a place starts, and along which names. -/
lemma walk_split_pathOf (h : AreNames l) :
    d.walk follow [] (Text.split '/' (pathOf l).text) = d.walk follow [] l := by
  by_cases hl : l = []
  · subst hl
    have hcut : Text.split '/' (pathOf []).text = [[], []] := rfl
    rw [hcut, walk_root, walk_root]
  · rw [split_text_pathOf (fun n hn => (h n hn).no_slash) hl, walk_root]

lemma resolve?_eq (l : Location) :
    d.resolve? follow (pathOf l)
      = d.walkLinks follow 41 [] (Text.split '/' (pathOf l).text) := rfl

/-- A walk that meets no link comes to a place or fails. -/
lemma walkLinks_of_walk {names : List Text} {n : Nat}
    (h : ∀ s, d.walk follow here names = .ok s → ∃ p, s = .place p) :
    d.walkLinks follow (n + 1) here names
      = (d.walk follow here names).bind fun s =>
          match s with
          | .place p => .ok p
          | .link _ _ _ => .error .tooManyLinks := by
  rw [walkLinks]
  cases hw : d.walk follow here names with
  | error e => rfl
  | ok s =>
      obtain ⟨p, rfl⟩ := h s hw
      rfl

lemma walk_names_place (hd : d.HasNoLinks) (h : AreNames l) {s : Stop}
    (hs : d.walk follow [] l = .ok s) : s = .place l := by
  rw [← List.append_nil l] at hs
  have hend := (walk_append hd h hs).1
  simpa [walk] using hend.symm

/-- **The path of a place denotes the place, if anything,** and then the directories above it can be
entered. -/
lemma resolve?_pathOf (hd : d.HasNoLinks) (h : AreNames l)
    (hr : d.resolve? follow (pathOf l) = .ok l') :
    l' = l ∧ ∀ k < l.length, d.checkEnter (l.take k) = .ok () := by
  have hplace : ∀ s, d.walk follow [] (Text.split '/' (pathOf l).text) = .ok s →
      ∃ p, s = .place p := by
    intro s hs
    rw [walk_split_pathOf h] at hs
    exact ⟨l, walk_names_place hd h hs⟩
  rw [resolve?_eq, walkLinks_of_walk hplace, walk_split_pathOf h] at hr
  cases hw : d.walk follow [] l with
  | error e => rw [hw] at hr; exact absurd hr (by simp [Except.bind])
  | ok s =>
      rw [hw, walk_names_place hd h hw] at hr
      have hsame : l' = l := by simpa [Except.bind] using hr.symm
      rw [← List.append_nil l] at hw
      exact ⟨hsame, by simpa using (walk_append hd h hw).2⟩

/-- The place of a path is found by looking at the entries on the way only. -/
lemma resolve?_congr (hd : d.HasNoLinks) (hd' : d'.HasNoLinks) (h : AreNames l)
    (hsame : ∀ k ≤ l.length, d'.node? (l.take k) = d.node? (l.take k)) :
    d'.resolve? follow (pathOf l) = d.resolve? follow (pathOf l) := by
  have hplace : ∀ {e : Disk}, e.HasNoLinks → ∀ s,
      e.walk follow [] (Text.split '/' (pathOf l).text) = .ok s → ∃ p, s = .place p := by
    intro e he s hs
    rw [walk_split_pathOf h] at hs
    exact ⟨l, walk_names_place he h hs⟩
  have hwalk : d'.walk follow [] l = d.walk follow [] l :=
    walk_congr h fun k hk => by simpa using hsame k hk
  rw [resolve?_eq, resolve?_eq, walkLinks_of_walk (hplace hd'), walkLinks_of_walk (hplace hd),
    walk_split_pathOf h, walk_split_pathOf h, hwalk]

/-! ### Looking at entries -/

lemma find?_pathOf (hd : d.HasNoLinks) (h : AreNames l) {n : Node}
    (hf : d.find? follow (pathOf l) = .ok (l', n)) : l' = l ∧ d.node? l = some n := by
  rw [find?] at hf
  cases hr : d.resolve? follow (pathOf l) with
  | error e => rw [hr] at hf; exact absurd hf (by simp)
  | ok p =>
      obtain ⟨rfl, -⟩ := resolve?_pathOf hd h hr
      rw [hr] at hf
      cases hn : d.node? p with
      | none => simp [hn] at hf
      | some m =>
          simp only [hn, Except.ok.injEq, Prod.mk.injEq] at hf
          exact ⟨hf.1.symm, by rw [hf.2]⟩

lemma find?_congr (hd : d.HasNoLinks) (hd' : d'.HasNoLinks) (h : AreNames l)
    (hsame : ∀ k ≤ l.length, d'.node? (l.take k) = d.node? (l.take k)) :
    d'.find? follow (pathOf l) = d.find? follow (pathOf l) := by
  rw [find?, find?, resolve?_congr hd hd' h hsame]
  cases hr : d.resolve? follow (pathOf l) with
  | error e => rfl
  | ok p =>
      obtain ⟨rfl, -⟩ := resolve?_pathOf hd h hr
      have hlast := hsame p.length (Nat.le_refl _)
      rw [List.take_length] at hlast
      simp only [hlast]

/-- What is read at a place is the contents of the file there. -/
lemma read?_pathOf (hd : d.HasNoLinks) (h : AreNames l) {bytes : Bytes}
    (hr : d.read? (pathOf l) = .ok bytes) :
    ∃ perms, d.node? l = some ⟨.file bytes, perms⟩ := by
  rw [read?] at hr
  cases hf : d.find? true (pathOf l) with
  | error e => rw [hf] at hr; exact absurd hr (by simp)
  | ok found =>
      obtain ⟨p, n⟩ := found
      obtain ⟨rfl, hn⟩ := find?_pathOf hd h hf
      rw [hf] at hr
      simp only at hr
      split at hr
      · exact absurd hr (by simp)
      · split at hr
        · next b hc =>
          obtain ⟨content, perms⟩ := n
          simp only at hc
          simp only [Except.ok.injEq] at hr
          exact ⟨perms, by rw [hn, hc, hr]⟩
        · exact absurd hr (by simp)

/-- The text that is read at a place is the text of the bytes there. -/
lemma readText?_pathOf (hd : d.HasNoLinks) (h : AreNames l) {t : Text}
    (hr : d.readText? (pathOf l) = .ok t) :
    ∃ bytes perms, d.node? l = some ⟨.file bytes, perms⟩ ∧ Text.ofUtf8? bytes = some t := by
  rw [readText?] at hr
  cases hb : d.read? (pathOf l) with
  | error e => rw [hb] at hr; exact absurd hr (by simp)
  | ok bytes =>
      obtain ⟨perms, hn⟩ := read?_pathOf hd h hb
      rw [hb] at hr
      cases ht : Text.ofUtf8? bytes with
      | none => simp [ht] at hr
      | some t' =>
          simp only [ht, Except.ok.injEq] at hr
          exact ⟨bytes, perms, hn, by rw [ht, hr]⟩

/-- The size of a file is the number of its bytes. -/
lemma size?_pathOf (hd : d.HasNoLinks) (h : AreNames l) {bytes : Bytes} {perms : Permissions}
    {size : Nat} (hn : d.node? l = some ⟨.file bytes, perms⟩)
    (hs : d.size? (pathOf l) = .ok size) : size = bytes.size := by
  rw [size?] at hs
  cases hf : d.find? true (pathOf l) with
  | error e => rw [hf] at hs; exact absurd hs (by simp)
  | ok found =>
      obtain ⟨p, n⟩ := found
      obtain ⟨rfl, hn'⟩ := find?_pathOf hd h hf
      rw [hn, Option.some.injEq] at hn'
      rw [hf, ← hn'] at hs
      simpa using hs.symm

/-- What is read, and how large it is, hangs on the entries on the way only. -/
lemma read?_congr (hd : d.HasNoLinks) (hd' : d'.HasNoLinks) (h : AreNames l)
    (hsame : ∀ k ≤ l.length, d'.node? (l.take k) = d.node? (l.take k)) :
    d'.read? (pathOf l) = d.read? (pathOf l) := by
  rw [read?, read?, find?_congr hd hd' h hsame]

lemma readText?_congr (hd : d.HasNoLinks) (hd' : d'.HasNoLinks) (h : AreNames l)
    (hsame : ∀ k ≤ l.length, d'.node? (l.take k) = d.node? (l.take k)) :
    d'.readText? (pathOf l) = d.readText? (pathOf l) := by
  rw [readText?, readText?, read?_congr hd hd' h hsame]

/-! ### Changing entries -/

/-- **A file was written**: it is put in the place of an older file or of nothing. -/
lemma write?_pathOf (hd : d.HasNoLinks) (h : AreNames l) {bytes : Bytes}
    (hw : d.write? (pathOf l) bytes = .ok d') :
    l ≠ [] ∧ (∀ n, d.node? l = some n → n.isDir = false) ∧
      ∃ perms, (∀ n, d.node? l = some n → n.permissions = perms) ∧
        d' = d.put l ⟨.file bytes, perms⟩ := by
  rw [write?] at hw
  cases hr : d.resolve? true (pathOf l) with
  | error e => rw [hr] at hw; exact absurd hw (by simp)
  | ok p =>
      obtain ⟨rfl, -⟩ := resolve?_pathOf hd h hr
      rw [hr] at hw
      cases hn : d.node? p with
      | none =>
          simp only [hn] at hw
          split at hw
          · simp only [Except.ok.injEq] at hw
            refine ⟨?_, by simp, .all, by simp, hw.symm⟩
            rintro rfl
            rw [node?_nil] at hn
            exact absurd hn (by simp)
          · exact absurd hw (by simp)
      | some n =>
          simp only [hn] at hw
          split at hw
          · exact absurd hw (by simp)
          · next hdir =>
            split at hw
            · simp only [Except.ok.injEq] at hw
              refine ⟨?_, by simpa using hdir, n.permissions, by simp, hw.symm⟩
              rintro rfl
              rw [node?_nil, Option.some.injEq] at hn
              rw [← hn] at hdir
              exact hdir rfl
            · exact absurd hw (by simp)

/-- **A file was removed**: its entry is erased. -/
lemma remove?_pathOf (hd : d.HasNoLinks) (h : AreNames l)
    (hr : d.remove? (pathOf l) = .ok d') :
    l ≠ [] ∧ (∀ n, d.node? l = some n → n.isDir = false) ∧ d' = d.erase l := by
  rw [remove?] at hr
  cases hf : d.find? false (pathOf l) with
  | error e => rw [hf] at hr; exact absurd hr (by simp)
  | ok found =>
      obtain ⟨p, n⟩ := found
      obtain ⟨rfl, hn⟩ := find?_pathOf hd h hf
      rw [hf] at hr
      simp only at hr
      split at hr
      · exact absurd hr (by simp)
      · split at hr
        · exact absurd hr (by simp)
        · next hdir =>
          simp only [Except.ok.injEq] at hr
          refine ⟨?_, ?_, hr.symm⟩
          · rintro rfl
            rw [node?_nil, Option.some.injEq] at hn
            rw [← hn] at hdir
            exact hdir rfl
          · intro m hm
            rw [hn, Option.some.injEq] at hm
            rw [← hm]
            simpa using hdir

lemma filesChanged_write? (hd : d.HasNoLinks) (h : AreNames l) {bytes : Bytes}
    (hw : d.write? (pathOf l) bytes = .ok d') : FilesChanged (· = l) d d' := by
  obtain ⟨hl, hdir, perms, -, rfl⟩ := write?_pathOf hd h hw
  intro l'
  rw [node?_put hl]
  by_cases hsame : l' = l
  · refine Or.inr ⟨hsame, by rwa [hsame], fun n hn => ⟨bytes, ?_⟩⟩
    rw [if_pos hsame, Option.some.injEq] at hn
    rw [← hn]
  · exact Or.inl (if_neg hsame)

lemma filesChanged_remove? (hd : d.HasNoLinks) (h : AreNames l)
    (hr : d.remove? (pathOf l) = .ok d') : FilesChanged (· = l) d d' := by
  obtain ⟨hl, hdir, rfl⟩ := remove?_pathOf hd h hr
  intro l'
  rw [node?_erase hl]
  by_cases hsame : l' = l
  · refine Or.inr ⟨hsame, by rwa [hsame], fun n hn => ?_⟩
    rw [if_pos hsame] at hn
    exact absurd hn (by simp)
  · exact Or.inl (if_neg hsame)

/-- A file is written into a directory. -/
lemma isDir_dropLast_of_write? (hd : d.HasNoLinks) (h : AreNames l) {bytes : Bytes}
    (hw : d.write? (pathOf l) bytes = .ok d') :
    ∃ up, d.node? l.dropLast = some up ∧ up.isDir = true := by
  have hpos := List.length_pos_of_ne_nil (write?_pathOf hd h hw).1
  rw [write?] at hw
  cases hr : d.resolve? true (pathOf l) with
  | error e => rw [hr] at hw; exact absurd hw (by simp)
  | ok p =>
      have henter := (resolve?_pathOf hd h hr).2 (l.length - 1) (by omega)
      rw [← List.dropLast_eq_take] at henter
      obtain ⟨up, hup, hdir, -⟩ := checkEnter_eq_ok_iff.mp henter
      exact ⟨up, hup, hdir⟩

/-- **A tree stays one** when a file is written. -/
lemma isTree_write? (hd : d.IsTree) (h : AreNames l) {bytes : Bytes}
    (hw : d.write? (pathOf l) bytes = .ok d') : d'.IsTree := by
  have hup := isDir_dropLast_of_write? hd.hasNoLinks h hw
  obtain ⟨hne, hfree, perms, -, rfl⟩ := write?_pathOf hd.hasNoLinks h hw
  exact hd.put h hne rfl hup hfree

lemma isTree_remove? (hd : d.IsTree) (h : AreNames l) (hr : d.remove? (pathOf l) = .ok d') :
    d'.IsTree := by
  obtain ⟨hne, hfile, rfl⟩ := remove?_pathOf hd.hasNoLinks h hr
  exact hd.erase hne hfile

/-- A walk that goes up at its end comes to a directory it went through. -/
lemma walk_dots (hd : d.HasNoLinks) (h : AreNames l) {s : Stop}
    (hs : d.walk follow [] (l ++ [['.', '.']]) = .ok s) :
    s = .place l.dropLast ∧ ∃ n, d.node? l.dropLast = some n ∧ n.isDir = true := by
  obtain ⟨hend, henter⟩ := walk_append hd h hs
  rw [List.nil_append] at hend
  rw [walk] at hend
  cases hent : d.checkEnter l with
  | error e => rw [hent] at hend; exact absurd hend (by simp)
  | ok u =>
      rw [hent] at hend
      have hplace : s = .place l.dropLast := by
        simpa [Path.isSilent, walk] using hend.symm
      refine ⟨hplace, ?_⟩
      by_cases hl : l = []
      · subst hl
        exact ⟨_, node?_nil d, rfl⟩
      · have hup := henter (l.length - 1) (by
          have := List.length_pos_of_ne_nil hl
          omega)
        rw [List.nil_append, ← List.dropLast_eq_take] at hup
        obtain ⟨n, hn, hdir, -⟩ := checkEnter_eq_ok_iff.mp hup
        exact ⟨n, hn, hdir⟩

/-- No file can be written at a path that leads up at its end. -/
lemma not_write?_pathOf_dots (hd : d.HasNoLinks) (h : AreNames l) (bytes : Bytes) :
    d.write? (pathOf (l ++ [['.', '.']])) bytes ≠ .ok d' := by
  intro hw
  have hnoslash : ∀ n ∈ l ++ [['.', '.']], '/' ∉ n := by
    intro n hn
    rcases List.mem_append.mp hn with hn | hn
    · exact (h n hn).no_slash
    · rw [List.mem_singleton.mp hn]
      decide
  have hplace : ∀ s, d.walk true [] (Text.split '/' (pathOf (l ++ [['.', '.']])).text) = .ok s →
      s = .place l.dropLast ∧ ∃ n, d.node? l.dropLast = some n ∧ n.isDir = true := by
    intro s hs
    rw [split_text_pathOf hnoslash (by simp), walk_root] at hs
    exact walk_dots hd h hs
  rw [write?, resolve?_eq, walkLinks_of_walk fun s hs => ⟨_, (hplace s hs).1⟩] at hw
  cases hwalk : d.walk true [] (Text.split '/' (pathOf (l ++ [['.', '.']])).text) with
  | error e => rw [hwalk] at hw; exact absurd hw (by simp [Except.bind])
  | ok s =>
      obtain ⟨rfl, n, hn, hdir⟩ := hplace s hwalk
      rw [hwalk] at hw
      simp [Except.bind, hn, hdir] at hw

/-! ### Files that stay -/

/-- A file that did not change is found as before, since its directories did not change either. -/
lemma FilesChanged.node?_take_eq {places : Location → Prop} (h : FilesChanged places d d')
    (hl : ¬ places l)
    (habove : ∀ k < l.length, ∃ n, d.node? (l.take k) = some n ∧ n.isDir = true) :
    ∀ k ≤ l.length, d'.node? (l.take k) = d.node? (l.take k) := by
  intro k hk
  rcases Nat.lt_or_eq_of_le hk with hlt | rfl
  · obtain ⟨n, hn, hdir⟩ := habove k hlt
    rw [hn, h.node?_eq_of_isDir hn hdir]
  · rw [List.take_length, h.node?_eq hl]

end ImageMigration.Disk
