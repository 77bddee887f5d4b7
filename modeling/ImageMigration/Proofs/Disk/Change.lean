/-
What operations do in trees that differ in files.

Writing files makes no way and closes none: directories stay, and an operation on an entry of a
directory that can be reached gives the same as before, down to its error, if the entry itself is as
before. Where the directory cannot be reached, the operation fails before and after, but the file
that was put in the way may give another reason.

* `Disk.Opens`: a directory can be reached and entered; `FilesChanged.opens_iff`: then it can be
  after files were written, and before;
* `Disk.resolve?_eq_ok_iff`, `Disk.read?_eq_ok_iff`, `Disk.readText?_eq_ok_iff`: what it takes to
  find an entry, and to read a file;
* `FilesChanged.find?_eq`: **an entry that did not change is found as before**;
* `FilesChanged.write?_eq`: what writing does to both trees.
-/
import ImageMigration.Proofs.Disk.Place

namespace ImageMigration.Disk

variable {d d' : Disk} {follow : Bool} {here l l' : Location} {n : Text} {names rest : List Text}
  {places : Location → Prop}

/-- The directory at a place can be reached from the root, and be entered. -/
def Opens (d : Disk) (l : Location) : Prop := ∀ k ≤ l.length, d.checkEnter (l.take k) = .ok ()

/-! ### Ways to an entry -/

/-- A walk goes through directories that can be entered. -/
lemma walk_of_entered (hn : AreNames names)
    (henter : ∀ k ≤ names.length, d.checkEnter (here ++ names.take k) = .ok ()) :
    d.walk follow here (names ++ rest) = d.walk follow (here ++ names) rest := by
  induction names generalizing here with
  | nil => simp
  | cons name names ih =>
      have hname := hn name (by simp)
      have hhere : d.checkEnter here = .ok () := by simpa using henter 0 (by simp)
      obtain ⟨node, hnode, hdir, -⟩ :=
        checkEnter_eq_ok_iff.mp (by simpa using henter 1 (by simp))
      have hgo : d.walk follow (here ++ [name]) (names ++ rest)
          = d.walk follow (here ++ [name] ++ names) rest :=
        ih (fun m hm => hn m (List.mem_cons_of_mem _ hm))
          fun k hk => by simpa using henter (k + 1) (by simpa using hk)
      rw [List.append_assoc] at hgo
      rw [List.cons_append, walk, hhere]
      simp only [hname.not_silent, Bool.false_eq_true, if_false, if_neg hname.ne_dots, hnode]
      obtain ⟨content, perms⟩ := node
      cases content with
      | file bytes => exact absurd hdir (by simp [Node.isDir])
      | dir => simpa using hgo
      | link target => exact absurd hdir (by simp [Node.isDir])

/-- The path of an entry denotes a place if its directory can be reached, and only then. -/
lemma resolve?_eq_ok_iff (hd : d.HasNoLinks) (h : AreNames (l ++ [n])) :
    d.resolve? follow (pathOf (l ++ [n])) = .ok l' ↔ l' = l ++ [n] ∧ d.Opens l := by
  constructor
  · intro hr
    obtain ⟨hsame, henter⟩ := resolve?_pathOf hd h hr
    refine ⟨hsame, fun k hk => ?_⟩
    have hent := henter k (by simp; omega)
    rwa [List.take_append_of_le_length hk] at hent
  · rintro ⟨rfl, hopens⟩
    have hwalk : d.walk follow [] (l ++ [n]) = .ok (.place (l ++ [n])) := by
      rw [walk_of_entered h.left (by simpa [Opens] using hopens), List.nil_append, walk,
        show d.checkEnter l = .ok () by simpa using hopens l.length (Nat.le_refl _)]
      simp only [h.last.not_silent, Bool.false_eq_true, if_false, if_neg h.last.ne_dots]
      cases hnode : d.node? (l ++ [n]) with
      | none => rfl
      | some node =>
          have hlink := hd _ _ hnode
          obtain ⟨content, perms⟩ := node
          cases content with
          | file bytes => simp [walk]
          | dir => simp [walk]
          | link target => exact absurd hlink (by simp [Node.isLink])
    rw [resolve?_eq, walkLinks, walk_split_pathOf h, hwalk]

lemma resolve?_of_opens (hd : d.HasNoLinks) (h : AreNames (l ++ [n])) (hopens : d.Opens l)
    (follow : Bool) : d.resolve? follow (pathOf (l ++ [n])) = .ok (l ++ [n]) :=
  (resolve?_eq_ok_iff hd h).mpr ⟨rfl, hopens⟩

/-- Where the directory cannot be reached, the path of an entry denotes nothing. -/
lemma exists_resolve?_eq_error (hd : d.HasNoLinks) (h : AreNames (l ++ [n])) (hopens : ¬ d.Opens l)
    (follow : Bool) : ∃ e, d.resolve? follow (pathOf (l ++ [n])) = .error e := by
  cases hr : d.resolve? follow (pathOf (l ++ [n])) with
  | error e => exact ⟨e, rfl⟩
  | ok p => exact absurd ((resolve?_eq_ok_iff hd h).mp hr).2 hopens

/-- The entry in a directory that can be reached, if there is one. -/
lemma find?_of_opens (hd : d.HasNoLinks) (h : AreNames (l ++ [n])) (hopens : d.Opens l)
    (follow : Bool) :
    d.find? follow (pathOf (l ++ [n]))
      = match d.node? (l ++ [n]) with
        | some node => .ok (l ++ [n], node)
        | none => .error .notFound := by
  have hplace := resolve?_of_opens hd h hopens follow
  cases hnode : d.node? (l ++ [n]) <;> simp only [find?, hplace, hnode]

/-- A file that has a size lies in a directory that can be reached. -/
lemma opens_of_size? (hd : d.HasNoLinks) (h : AreNames (l ++ [n])) {size : Nat}
    (hs : d.size? (pathOf (l ++ [n])) = .ok size) : d.Opens l := by
  by_contra hno
  obtain ⟨e, hr⟩ := exists_resolve?_eq_error hd h hno true
  rw [size?, find?, hr] at hs
  exact absurd hs (by simp)

lemma exists_size?_eq_error (hd : d.HasNoLinks) (h : AreNames (l ++ [n])) (hopens : ¬ d.Opens l) :
    ∃ e, d.size? (pathOf (l ++ [n])) = .error e := by
  obtain ⟨e, hr⟩ := exists_resolve?_eq_error hd h hopens true
  exact ⟨e, by rw [size?, find?, hr]⟩

/-- A file at a place for an entry is written there, if it can be. -/
lemma write?_of_opens (hd : d.HasNoLinks) (h : AreNames (l ++ [n])) (hopens : d.Opens l)
    (bytes : Bytes) :
    d.write? (pathOf (l ++ [n])) bytes
      = match d.node? (l ++ [n]) with
        | some node =>
          if node.isDir then .error .isDirectory
          else if node.permissions.write then
            .ok (d.put (l ++ [n]) ⟨.file bytes, node.permissions⟩)
          else .error .permissionDenied
        | none =>
          if d.isChangeable (l ++ [n]) then .ok (d.put (l ++ [n]) ⟨.file bytes, .all⟩)
          else .error .permissionDenied := by
  have hplace := resolve?_of_opens hd h hopens true
  cases hnode : d.node? (l ++ [n]) <;> simp only [write?, hplace, hnode]

/-- What is read is the contents of a file that may be read, in a directory that can be reached. -/
lemma read?_eq_ok_iff (hd : d.HasNoLinks) (h : AreNames (l ++ [n])) {bytes : Bytes} :
    d.read? (pathOf (l ++ [n])) = .ok bytes ↔ d.Opens l ∧
      ∃ perms, d.node? (l ++ [n]) = some ⟨.file bytes, perms⟩ ∧ perms.read = true := by
  by_cases hopens : d.Opens l
  · rw [read?, find?_of_opens hd h hopens]
    cases hnode : d.node? (l ++ [n]) with
    | none => simp
    | some node =>
        obtain ⟨content, perms⟩ := node
        have hlink := hd _ _ hnode
        cases hread : perms.read with
        | false =>
            simp only [hread, Bool.not_false, if_true, reduceCtorEq, false_iff, not_and]
            rintro - ⟨perms', hsame, hread'⟩
            simp only [Option.some.injEq, Node.mk.injEq] at hsame
            rw [← hsame.2, hread] at hread'
            exact absurd hread' (by simp)
        | true =>
            cases content with
            | file old => simp [hread, hopens]
            | dir => simp [hread]
            | link target => exact absurd hlink (by simp [Node.isLink])
  · obtain ⟨e, hr⟩ := exists_resolve?_eq_error hd h hopens true
    rw [read?, find?, hr]
    simp [hopens]

/-- The text of a file is read if its bytes are. -/
lemma readText?_eq_ok_iff {p : Path} {t : Text} :
    d.readText? p = .ok t ↔ d.read? p = .ok t.toUtf8 := by
  rw [readText?]
  cases d.read? p with
  | error e => simp
  | ok bytes =>
      rw [Except.ok.injEq, @eq_comm _ bytes, ← Text.ofUtf8?_eq_some_iff]
      simp only
      cases Text.ofUtf8? bytes <;> simp

/-- Nothing is written to the directory above one that can be reached. -/
lemma write?_dots_of_opens (h : AreNames l) (hopens : d.Opens l) (bytes : Bytes) :
    d.write? (pathOf (l ++ [['.', '.']])) bytes = .error .isDirectory := by
  have hslash : ∀ m ∈ l ++ [['.', '.']], '/' ∉ m := by
    intro m hm
    rcases List.mem_append.mp hm with hm | hm
    · exact (h m hm).no_slash
    · rw [List.mem_singleton.mp hm]
      decide
  have hwalk : d.walk true [] (l ++ [['.', '.']]) = .ok (.place l.dropLast) := by
    rw [walk_of_entered h (by simpa [Opens] using hopens), List.nil_append, walk,
      show d.checkEnter l = .ok () by simpa using hopens l.length (Nat.le_refl _)]
    simp [Path.isSilent, walk]
  obtain ⟨node, hnode, hdir, -⟩ :=
    checkEnter_eq_ok_iff.mp (hopens (l.length - 1) (Nat.sub_le _ _))
  rw [← List.dropLast_eq_take] at hnode
  rw [write?, resolve?_eq, walkLinks, split_text_pathOf hslash (by simp), walk_root, hwalk]
  simp [hnode, hdir]

/-- No entries can be added where there is no directory. -/
lemma isChangeable_eq_false (h : ∀ node, d.node? l.dropLast = some node → node.isDir = false) :
    d.isChangeable l = false := by
  rw [isChangeable]
  cases hn : d.node? l.dropLast with
  | none => rfl
  | some node => simp [h node hn]

/-! ### Trees that differ in files -/

namespace FilesChanged

/-- A directory of the later tree was there before. -/
lemma node?_eq_of_isDir_after (h : FilesChanged places d d') {node : Node}
    (hn : d'.node? l = some node) (hdir : node.isDir = true) : d.node? l = some node := by
  rcases h l with hsame | ⟨-, -, hfile⟩
  · rwa [← hsame]
  · obtain ⟨bytes, hc⟩ := hfile node hn
    exact absurd hdir (by simp [Node.isDir, hc])

lemma opens_iff (h : FilesChanged places d d') : d'.Opens l ↔ d.Opens l := by
  refine forall₂_congr fun k _ => ?_
  rw [checkEnter_eq_ok_iff, checkEnter_eq_ok_iff]
  constructor
  · rintro ⟨node, hn, hdir, henter⟩
    exact ⟨node, h.node?_eq_of_isDir_after hn hdir, hdir, henter⟩
  · rintro ⟨node, hn, hdir, henter⟩
    exact ⟨node, h.node?_eq_of_isDir hn hdir, hdir, henter⟩

/-- Where entries can be added does not change. -/
lemma isChangeable_eq (h : FilesChanged places d d') (l : Location) :
    d'.isChangeable l = d.isChangeable l := by
  rcases h l.dropLast with hsame | ⟨-, hno, hfile⟩
  · rw [isChangeable, isChangeable, hsame]
  · have hafter : ∀ node, d'.node? l.dropLast = some node → node.isDir = false := by
      intro node hn
      obtain ⟨bytes, hc⟩ := hfile node hn
      simp [Node.isDir, hc]
    rw [isChangeable_eq_false hafter, isChangeable_eq_false hno]

variable (h : FilesChanged places d d') (hd : d.HasNoLinks) (hn : AreNames (l ++ [n]))
  (hsame : d'.node? (l ++ [n]) = d.node? (l ++ [n]))

include h hd hn hsame

/-- **An entry that did not change is found as before,** if its directory can be reached. -/
lemma find?_eq (hopens : d.Opens l) (follow : Bool) :
    d'.find? follow (pathOf (l ++ [n])) = d.find? follow (pathOf (l ++ [n])) := by
  rw [find?_of_opens (h.hasNoLinks hd) hn (h.opens_iff.mpr hopens), find?_of_opens hd hn hopens,
    hsame]

/-- **A file that did not change is written as before**: both trees refuse it for one reason, or
both get it. -/
lemma write?_eq (hopens : d.Opens l) (bytes : Bytes) :
    (∃ e, d.write? (pathOf (l ++ [n])) bytes = .error e ∧
        d'.write? (pathOf (l ++ [n])) bytes = .error e) ∨
      ∃ perms, d.write? (pathOf (l ++ [n])) bytes = .ok (d.put (l ++ [n]) ⟨.file bytes, perms⟩) ∧
        d'.write? (pathOf (l ++ [n])) bytes = .ok (d'.put (l ++ [n]) ⟨.file bytes, perms⟩) := by
  rw [write?_of_opens (h.hasNoLinks hd) hn (h.opens_iff.mpr hopens), write?_of_opens hd hn hopens,
    hsame]
  cases d.node? (l ++ [n]) with
  | none =>
      simp only [h.isChangeable_eq]
      split
      · exact Or.inr ⟨_, rfl, rfl⟩
      · exact Or.inl ⟨_, rfl, rfl⟩
  | some node =>
      simp only
      split
      · exact Or.inl ⟨_, rfl, rfl⟩
      · split
        · exact Or.inr ⟨_, rfl, rfl⟩
        · exact Or.inl ⟨_, rfl, rfl⟩

end FilesChanged

/-! ### Sizes and contents -/

lemma size?_eq_of_find? {p : Path} (h : d'.find? true p = d.find? true p) :
    d'.size? p = d.size? p := by
  rw [size?, size?, h]

lemma read?_eq_of_find? {p : Path} (h : d'.find? true p = d.find? true p) :
    d'.read? p = d.read? p := by
  rw [read?, read?, h]

end ImageMigration.Disk
