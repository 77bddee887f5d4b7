/-
Paths in a tree with links, and writing files there.

A walk that comes to an end passes no file on its way, and nothing can be put where a directory or a
link stands. So a path denotes the same place before and after files were written, however many
links it leads through.

* `Disk.Walks`: how a walk comes to an end;
* `Disk.find?_follow`: it makes no difference whether a link at the end is followed, if none is
  there;
* `Disk.walk_append_of_ok`: a walk along more names goes on where the shorter one stopped;
* `Disk.resolve?_concat`: one name more on a path is one step more from the place of the path;
* `Disk.IsFree`, `Disk.FilesDiffer`: trees that differ where both have a file or nothing;
  `FilesDiffer.resolve?_eq`: **paths denote the same places in both**;
* `Disk.HasParents`: the entries of a tree are in directories; then a path that is followed to its
  end denotes no link;
* `Disk.write?_cases`, `Disk.FilesDiffer.write?_cases`: **where a file is written.**
-/
import ImageMigration.Proofs.Disk.Place

namespace ImageMigration.Disk

variable {d d' d'' : Disk} {follow : Bool} {here l root : Location} {names : List Text} {name : Text}
  {bytes : Bytes} {perms : Permissions} {p : Path}

/-! ### Walks that come to an end -/

/-- A walk along names comes to an end. It is in a directory whenever it goes on. -/
inductive Walks (d : Disk) (follow : Bool) : Location → List Text → Stop → Prop
  | stay {here : Location} : Walks d follow here [] (.place here)
  | silent {here : Location} {name : Text} {rest : List Text} {s : Stop}
      (henter : d.checkEnter here = .ok ()) (hsilent : Path.isSilent name = true)
      (h : Walks d follow here rest s) : Walks d follow here (name :: rest) s
  | up {here : Location} {rest : List Text} {s : Stop} (henter : d.checkEnter here = .ok ())
      (h : Walks d follow here.dropLast rest s) : Walks d follow here (['.', '.'] :: rest) s
  | fresh {here : Location} {name : Text} (henter : d.checkEnter here = .ok ())
      (hsilent : Path.isSilent name = false) (hdots : name ≠ ['.', '.'])
      (hn : d.node? (here ++ [name]) = none) :
      Walks d follow here [name] (.place (here ++ [name]))
  | link {here : Location} {name : Text} {rest : List Text} {target : Path} {perms : Permissions}
      (henter : d.checkEnter here = .ok ()) (hsilent : Path.isSilent name = false)
      (hdots : name ≠ ['.', '.']) (hn : d.node? (here ++ [name]) = some ⟨.link target, perms⟩) :
      Walks d follow here (name :: rest)
        (if rest = [] ∧ !follow then .place (here ++ [name]) else .link target here rest)
  | next {here : Location} {name : Text} {rest : List Text} {s : Stop} {n : Node}
      (henter : d.checkEnter here = .ok ()) (hsilent : Path.isSilent name = false)
      (hdots : name ≠ ['.', '.']) (hn : d.node? (here ++ [name]) = some n)
      (hlink : n.isLink = false) (h : Walks d follow (here ++ [name]) rest s) :
      Walks d follow here (name :: rest) s

lemma walks_of_walk {s : Stop} (hs : d.walk follow here names = .ok s) :
    Walks d follow here names s := by
  induction names generalizing here with
  | nil =>
      rw [walk, Except.ok.injEq] at hs
      rw [← hs]
      exact .stay
  | cons name rest ih =>
      rw [walk] at hs
      cases henter : d.checkEnter here with
      | error e => rw [henter] at hs; exact absurd hs (by simp)
      | ok u =>
          rw [henter] at hs
          simp only at hs
          split at hs
          · next hsilent => exact .silent henter hsilent (ih hs)
          · next hsilent =>
            rw [Bool.not_eq_true] at hsilent
            split at hs
            · next hdots =>
              subst hdots
              exact .up henter (ih hs)
            · next hdots =>
              cases hn : d.node? (here ++ [name]) with
              | none =>
                  rw [hn] at hs
                  simp only at hs
                  split at hs
                  · next hrest =>
                    rw [Except.ok.injEq] at hs
                    rw [← hs, hrest]
                    exact .fresh henter hsilent hdots hn
                  · exact absurd hs (by simp)
              | some n =>
                  rw [hn] at hs
                  obtain ⟨content, perms⟩ := n
                  cases content with
                  | link target =>
                      have hend : s = if rest = [] ∧ !follow then .place (here ++ [name])
                          else .link target here rest := by
                        simp only at hs
                        split at hs
                        · next hlast => rw [if_pos hlast]; exact (Except.ok.inj hs).symm
                        · next hlast => rw [if_neg hlast]; exact (Except.ok.inj hs).symm
                      rw [hend]
                      exact .link henter hsilent hdots hn
                  | file old => exact .next henter hsilent hdots hn rfl (ih hs)
                  | dir => exact .next henter hsilent hdots hn rfl (ih hs)

lemma Walks.walk_eq {s : Stop} (h : Walks d follow here names s) :
    d.walk follow here names = .ok s := by
  induction h with
  | stay => rw [walk]
  | silent henter hsilent h ih => rw [walk, henter, ← ih, if_pos hsilent]
  | up henter h ih => rw [walk, henter, ← ih]; rfl
  | fresh henter hsilent hdots hn => rw [walk, henter]; simp [hsilent, hdots, hn]
  | link henter hsilent hdots hn =>
      rw [walk, henter]
      simp only [hsilent, hdots, hn, if_false, Bool.false_eq_true]
      split <;> rfl
  | @next here name rest s n henter hsilent hdots hn hlink h ih =>
      rw [walk, henter, ← ih]
      obtain ⟨content, perms⟩ := n
      cases content with
      | link target => exact absurd hlink (by simp [Node.isLink])
      | file old => simp [hsilent, hdots, hn]
      | dir => simp [hsilent, hdots, hn]

/-! ### Entries that paths denote -/

lemma find?_eq_ok_iff {n : Node} :
    d.find? follow p = .ok (l, n) ↔ d.resolve? follow p = .ok l ∧ d.node? l = some n := by
  rw [find?]
  cases d.resolve? follow p with
  | error e => simp
  | ok l' =>
      cases hn : d.node? l' with
      | none =>
          simp only [hn, reduceCtorEq, Except.ok.injEq, false_iff, not_and]
          rintro rfl
          simp [hn]
      | some n' =>
          simp only [hn, Except.ok.injEq, Prod.mk.injEq]
          constructor
          · rintro ⟨rfl, rfl⟩
            exact ⟨rfl, hn⟩
          · rintro ⟨rfl, h⟩
            exact ⟨rfl, Option.some.inj (hn.symm.trans h)⟩

/-- A walk that ends at no link does so whether links at its end are followed or not. -/
lemma Walks.of_no_link {s : Stop} (h : Walks d false here names s)
    (hlink : ∀ l, s = .place l → ∀ n, d.node? l = some n → n.isLink = false) :
    Walks d true here names s := by
  induction h with
  | stay => exact .stay
  | silent henter hsilent _ ih => exact .silent henter hsilent (ih hlink)
  | up henter _ ih => exact .up henter (ih hlink)
  | fresh henter hsilent hdots hn => exact .fresh henter hsilent hdots hn
  | @link here name rest target perms henter hsilent hdots hn =>
      by_cases hrest : rest = []
      · rw [if_pos ⟨hrest, rfl⟩] at hlink
        exact absurd (hlink _ rfl _ hn) (by simp [Node.isLink])
      · rw [if_neg fun h => hrest h.1]
        have hwalks : Walks d true here (name :: rest) _ := .link henter hsilent hdots hn
        rwa [if_neg fun h => hrest h.1] at hwalks
  | next henter hsilent hdots hn hnext _ ih => exact .next henter hsilent hdots hn hnext (ih hlink)

/-- **An entry that is no link is found in both ways,** following links at the end of a path or
not. -/
lemma find?_follow {n : Node} (h : d.find? false p = .ok (l, n)) (hlink : n.isLink = false) :
    d.find? true p = .ok (l, n) := by
  obtain ⟨hl, hn⟩ := find?_eq_ok_iff.mp h
  have hlinks : ∀ k here names, d.walkLinks false k here names = .ok l →
      d.walkLinks true k here names = .ok l := by
    intro k
    induction k with
    | zero => intro here names hw; rw [walkLinks] at hw; exact absurd hw (by simp)
    | succ k ih =>
        intro here names hw
        rw [walkLinks] at hw ⊢
        cases hs : d.walk false here names with
        | error e => rw [hs] at hw; exact absurd hw (by simp)
        | ok s =>
            rw [hs] at hw
            have hend : ∀ l', s = .place l' → ∀ n', d.node? l' = some n' → n'.isLink = false := by
              rintro l' rfl n' hn'
              rw [Except.ok.injEq] at hw
              rw [hw, hn, Option.some.injEq] at hn'
              rwa [← hn']
            rw [((walks_of_walk hs).of_no_link hend).walk_eq]
            cases s with
            | place l' => exact hw
            | link target dir rest => exact ih _ _ hw
  refine find?_eq_ok_iff.mpr ⟨?_, hn⟩
  rw [resolve?] at hl ⊢
  split at hl
  · exact absurd hl (by simp)
  · next hp => rw [if_neg hp]; exact hlinks _ _ _ hl

/-! ### One name more -/

/-- What becomes of a walk with more names left than it had: from a place it goes on, and at a link
it stops as before. -/
def Stop.goOn (d : Disk) (names : List Text) : Stop → Except OsError Stop
  | .place l => d.walk true l names
  | .link target dir rest => .ok (.link target dir (rest ++ names))

/-- A walk along more names goes on where the shorter one stopped, if that was not at a name that
is not there. -/
lemma walk_append_of_ok {front : List Text} {stop : Stop} (h : d.walk true here front = .ok stop)
    (hthere : ∀ l, stop = .place l → ∃ n, d.node? l = some n) (names : List Text) :
    d.walk true here (front ++ names) = stop.goOn d names := by
  induction front generalizing here with
  | nil =>
      simp only [walk, Except.ok.injEq] at h
      rw [← h, List.nil_append, Stop.goOn]
  | cons name front ih =>
      rw [walk] at h
      rw [List.cons_append, walk]
      cases hent : d.checkEnter here with
      | error e => rw [hent] at h; exact absurd h (by simp)
      | ok u =>
          rw [hent] at h
          simp only at h ⊢
          split at h
          · next hs => rw [if_pos hs, ih h]
          next hs =>
          rw [if_neg hs]
          split at h
          · next hdots => rw [if_pos hdots, ih h]
          next hdots =>
          rw [if_neg hdots]
          cases hnode : d.node? (here ++ [name]) with
          | none =>
              simp only [hnode] at h
              split at h
              · simp only [Except.ok.injEq] at h
                obtain ⟨n, hn⟩ := hthere _ h.symm
                rw [hnode] at hn
                exact absurd hn (by simp)
              · exact absurd h (by simp)
          | some m =>
              obtain ⟨content, perms⟩ := m
              cases content with
              | link target =>
                  simp only [hnode, Bool.not_true, Bool.false_eq_true, and_false, if_false,
                    Except.ok.injEq] at h ⊢
                  rw [← h, Stop.goOn]
              | dir => simpa only [hnode] using ih (by simpa only [hnode] using h)
              | file bytes => simpa only [hnode] using ih (by simpa only [hnode] using h)

/-- The place of a path with one name more is one step further, unless a link stands there. -/
lemma walkLinks_concat {front : List Text} {steps : Nat} {n n' : Node} (hname : IsName name)
    (h : d.walkLinks true steps here front = .ok root) (hroot : d.node? root = some n')
    (hnode : d.node? (root ++ [name]) = some n) (hlink : n.isLink = false)
    (hl : d.walkLinks true steps here (front ++ [name]) = .ok l) : l = root ++ [name] := by
  induction steps generalizing here front with
  | zero => exact absurd h (by simp [walkLinks])
  | succ steps ih =>
      rw [walkLinks] at h hl
      cases hwalk : d.walk true here front with
      | error e => rw [hwalk] at h; exact absurd h (by simp)
      | ok stop =>
          rw [hwalk] at h
          cases stop with
          | place l' =>
              simp only [Except.ok.injEq] at h
              subst h
              have hgo := walk_append_of_ok hwalk (fun l hplace => by
                simp only [Stop.place.injEq] at hplace
                exact ⟨n', hplace ▸ hroot⟩) [name]
              rw [hgo, Stop.goOn, walk] at hl
              cases hent : d.checkEnter l' with
              | error e => rw [hent] at hl; exact absurd hl (by simp)
              | ok u =>
                  obtain ⟨content, perms⟩ := n
                  cases content with
                  | link target => exact absurd hlink (by simp [Node.isLink])
                  | dir =>
                      simpa [hent, hname.not_silent, hname.ne_dots, hnode, walk] using hl.symm
                  | file bytes =>
                      simpa [hent, hname.not_silent, hname.ne_dots, hnode, walk] using hl.symm
          | link target dir rest =>
              rw [walk_append_of_ok hwalk (by simp), Stop.goOn] at hl
              simp only [← List.append_assoc] at hl
              exact ih h hl

/-- The path of a place is resolved along the names of the place. -/
lemma resolve?_pathOf_eq {follow : Bool} (hl : AreNames l) :
    d.resolve? follow (pathOf l) = d.walkLinks follow 41 [] l := by
  rw [resolve?_eq, walkLinks, walkLinks, walk_split_pathOf hl]

/-- **One name more on a path is one step more from its place,** unless a link stands there. -/
lemma resolve?_concat {n n' : Node} (hnames : AreNames (l ++ [name]))
    (h : d.resolve? true (pathOf l) = .ok root) (hroot : d.node? root = some n')
    (hnode : d.node? (root ++ [name]) = some n) (hlink : n.isLink = false) {place : Location}
    (hp : d.resolve? true (pathOf (l ++ [name])) = .ok place) : place = root ++ [name] := by
  rw [resolve?_pathOf_eq hnames.left] at h
  rw [resolve?_pathOf_eq hnames] at hp
  exact walkLinks_concat hnames.last h hroot hnode hlink hp

/-! ### Free places -/

/-- Nothing or a file stands at a place. -/
def IsFree (d : Disk) (l : Location) : Prop :=
  d.node? l = none ∨ ∃ bytes perms, d.node? l = some ⟨.file bytes, perms⟩

/-- No walk goes on from a place where no directory is. -/
lemma IsFree.checkEnter_ne (h : d.IsFree l) : d.checkEnter l ≠ .ok () := by
  rw [checkEnter]
  rcases h with hn | ⟨bytes, perms, hn⟩ <;> rw [hn]
  · simp
  · simp [Node.isDir]

lemma IsFree.ne_nil (h : d.IsFree l) : l ≠ [] := by
  rintro rfl
  rcases h with hn | ⟨bytes, perms, hn⟩ <;> rw [node?, if_pos rfl] at hn <;> simp at hn

/-- A walk that comes to a free place ends there. -/
lemma IsFree.eq_of_walks (h : d.IsFree l) {s : Stop} (hs : Walks d follow l names s) :
    names = [] ∧ s = .place l := by
  cases hs with
  | stay => exact ⟨rfl, rfl⟩
  | silent henter | up henter | fresh henter | link henter | next henter =>
      exact absurd henter h.checkEnter_ne

/-- A walk ends at a free place in a directory. -/
lemma IsFree.walks {name : Text} (h : d.IsFree (here ++ [name]))
    (henter : d.checkEnter here = .ok ()) (hsilent : Path.isSilent name = false)
    (hdots : name ≠ ['.', '.']) : Walks d follow here [name] (.place (here ++ [name])) := by
  rcases h with hn | ⟨bytes, perms, hn⟩
  · exact .fresh henter hsilent hdots hn
  · exact .next henter hsilent hdots hn rfl .stay

/-! ### Trees that differ at free places -/

/-- The trees differ only where both have a file or nothing. -/
structure FilesDiffer (d d' : Disk) : Prop where
  workingDir : d'.workingDir = d.workingDir
  node : ∀ l, d'.node? l = d.node? l ∨ d.IsFree l ∧ d'.IsFree l

namespace FilesDiffer

lemma put (h : d.IsFree l) (bytes : Bytes) (perms : Permissions) :
    FilesDiffer d (d.put l ⟨.file bytes, perms⟩) := by
  refine ⟨rfl, fun l' => ?_⟩
  by_cases heq : l' = l
  · subst heq
    exact Or.inr ⟨h, Or.inr ⟨bytes, perms, by rw [node?_put h.ne_nil, if_pos rfl]⟩⟩
  · exact Or.inl (by rw [node?_put h.ne_nil, if_neg heq])

lemma symm (h : FilesDiffer d d') : FilesDiffer d' d :=
  ⟨h.workingDir.symm, fun l => (h.node l).imp Eq.symm And.symm⟩

variable (h : FilesDiffer d d')

include h

/-- The same directories can be entered. -/
lemma checkEnter_eq (henter : d.checkEnter here = .ok ()) : d'.checkEnter here = .ok () := by
  rcases h.node here with heq | ⟨hfree, -⟩
  · rw [← henter, checkEnter, checkEnter, heq]
  · exact absurd henter hfree.checkEnter_ne

/-- A walk that comes to its end in one of the trees does so in the other one. -/
lemma walks {s : Stop} (hs : Walks d follow here names s) : Walks d' follow here names s := by
  induction hs with
  | stay => exact .stay
  | silent henter hsilent _ ih => exact .silent (h.checkEnter_eq henter) hsilent ih
  | up henter _ ih => exact .up (h.checkEnter_eq henter) ih
  | @fresh here name henter hsilent hdots hn =>
      rcases h.node (here ++ [name]) with heq | ⟨-, hfree⟩
      · exact .fresh (h.checkEnter_eq henter) hsilent hdots (heq.trans hn)
      · exact hfree.walks (h.checkEnter_eq henter) hsilent hdots
  | @link here name rest target perms henter hsilent hdots hn =>
      rcases h.node (here ++ [name]) with heq | ⟨hfree, -⟩
      · exact .link (h.checkEnter_eq henter) hsilent hdots (heq.trans hn)
      · rcases hfree with hnone | ⟨bytes, perms', hfile⟩
        · exact absurd (hn.symm.trans hnone) (by simp)
        · exact absurd (hn.symm.trans hfile) (by simp)
  | @next here name rest s n henter hsilent hdots hn hlink hnext ih =>
      rcases h.node (here ++ [name]) with heq | ⟨hfree, hfree'⟩
      · exact .next (h.checkEnter_eq henter) hsilent hdots (heq.trans hn) hlink ih
      · -- the walk ends at a free place, and does so whatever file is there
        obtain ⟨rfl, rfl⟩ := hfree.eq_of_walks hnext
        exact hfree'.walks (h.checkEnter_eq henter) hsilent hdots

lemma walkLinks_eq {n : Nat} (hl : d.walkLinks follow n here names = .ok l) :
    d'.walkLinks follow n here names = .ok l := by
  induction n generalizing here names with
  | zero => rw [walkLinks] at hl; exact absurd hl (by simp)
  | succ n ih =>
      rw [walkLinks] at hl ⊢
      cases hw : d.walk follow here names with
      | error e => rw [hw] at hl; exact absurd hl (by simp)
      | ok s =>
          rw [hw] at hl
          rw [(h.walks (walks_of_walk hw)).walk_eq]
          cases s with
          | place l' => exact hl
          | link target dir rest => exact ih hl

/-- **A path denotes the same place** in both trees. -/
lemma resolve?_eq (hl : d.resolve? follow p = .ok l) : d'.resolve? follow p = .ok l := by
  rw [resolve?] at hl ⊢
  rw [h.workingDir]
  split at hl
  · exact absurd hl (by simp)
  · next hp => rw [if_neg hp]; exact h.walkLinks_eq hl

end FilesDiffer

/-! ### Places of paths that are followed -/

/-- Every entry is in a directory. -/
def HasParents (d : Disk) : Prop :=
  ∀ entry ∈ d.nodes, (d.node? entry.1.dropLast).any Node.isDir = true

instance (d : Disk) : Decidable d.HasParents :=
  inferInstanceAs (Decidable (∀ entry ∈ d.nodes, (d.node? entry.1.dropLast).any Node.isDir = true))

lemma isLink_eq_false_of_checkEnter (h : d.checkEnter here = .ok ()) {n : Node}
    (hn : d.node? here = some n) : n.isLink = false := by
  obtain ⟨n', hn', hdir, -⟩ := checkEnter_eq_ok_iff.mp h
  rw [hn, Option.some.injEq] at hn'
  rw [hn']
  exact Node.isLink_eq_false_of_isDir hdir

/-- The directory above one that can be entered is no link. -/
lemma HasParents.isLink_dropLast (h : d.HasParents) (henter : d.checkEnter here = .ok ()) {n : Node}
    (hn : d.node? here.dropLast = some n) : n.isLink = false := by
  by_cases hnil : here = []
  · subst hnil
    exact isLink_eq_false_of_checkEnter henter hn
  · obtain ⟨n', hn', -⟩ := checkEnter_eq_ok_iff.mp henter
    have hdir := h _ (mem_of_node? hnil hn')
    rw [hn, Option.any_some] at hdir
    exact Node.isLink_eq_false_of_isDir hdir

/-- A walk that follows links does not end at one. -/
lemma HasParents.isLink_of_walks (h : d.HasParents) {s : Stop} (hs : Walks d true here names s)
    (hl : s = .place l) (hhere : names = [] → ∀ n, d.node? here = some n → n.isLink = false)
    {n : Node} (hn : d.node? l = some n) : n.isLink = false := by
  induction hs with
  | stay =>
      rw [Stop.place.injEq] at hl
      subst hl
      exact hhere rfl n hn
  | silent henter _ _ ih => exact ih hl fun _ n hn => isLink_eq_false_of_checkEnter henter hn
  | up henter _ ih => exact ih hl fun _ n hn => h.isLink_dropLast henter hn
  | fresh _ _ _ hnone =>
      rw [Stop.place.injEq] at hl
      rw [← hl, hnone] at hn
      exact absurd hn (by simp)
  | link => exact absurd hl (by simp)
  | next _ _ _ hnode hlink _ ih =>
      refine ih hl fun _ n hn => ?_
      rw [hnode, Option.some.injEq] at hn
      rw [← hn]
      exact hlink

/-- **A path that is followed to its end denotes no link.** -/
lemma HasParents.isLink_of_resolve? (h : d.HasParents) (hl : d.resolve? true p = .ok l) {n : Node}
    (hn : d.node? l = some n) : n.isLink = false := by
  have hlinks : ∀ k here names, names ≠ [] → d.walkLinks true k here names = .ok l →
      n.isLink = false := by
    intro k
    induction k with
    | zero => intro here names _ hw; rw [walkLinks] at hw; exact absurd hw (by simp)
    | succ k ih =>
        intro here names hne hw
        rw [walkLinks] at hw
        cases hs : d.walk true here names with
        | error e => rw [hs] at hw; exact absurd hw (by simp)
        | ok s =>
            rw [hs] at hw
            cases s with
            | place l' =>
                rw [Except.ok.injEq] at hw
                subst hw
                exact h.isLink_of_walks (walks_of_walk hs) rfl (fun hnil => absurd hnil hne) hn
            | link target dir rest =>
                exact ih _ _ (by simp [Text.split_ne_nil]) hw
  rw [resolve?] at hl
  split at hl
  · exact absurd hl (by simp)
  · exact hlinks _ _ _ (Text.split_ne_nil _ _) hl

/-! ### Where a file is written -/

/-- A file that was written stands at the place of its path, where no directory was. It has the
permissions of what was there. -/
lemma write?_cases (hw : d.write? p bytes = .ok d') :
    ∃ l, d.resolve? true p = .ok l ∧
      ((d.node? l = none ∧ d' = d.put l ⟨.file bytes, .all⟩) ∨
        ∃ n, d.node? l = some n ∧ n.isDir = false ∧
          d' = d.put l ⟨.file bytes, n.permissions⟩) := by
  rw [write?] at hw
  cases hr : d.resolve? true p with
  | error e => rw [hr] at hw; exact absurd hw (by simp)
  | ok l =>
      rw [hr] at hw
      refine ⟨l, rfl, ?_⟩
      cases hn : d.node? l with
      | none =>
          simp only [hn] at hw
          split at hw
          · exact Or.inl ⟨rfl, (Except.ok.inj hw).symm⟩
          · exact absurd hw (by simp)
      | some node =>
          simp only [hn] at hw
          split at hw
          · exact absurd hw (by simp)
          · next hdir =>
            split at hw
            · exact Or.inr ⟨node, rfl, by simpa using hdir, (Except.ok.inj hw).symm⟩
            · exact absurd hw (by simp)

/-- In a tree that differs from another one in files, a file is written at a place that its path
denotes in both, and that is free in both. -/
lemma FilesDiffer.write?_cases (h : FilesDiffer d d') (hd : d.HasParents)
    (hw : d'.write? p bytes = .ok d'') :
    ∃ l perms, d.resolve? true p = .ok l ∧ d.IsFree l ∧ d'' = d'.put l ⟨.file bytes, perms⟩ ∧
      (d'.node? l = none ∧ perms = .all ∨
        ∃ old, d'.node? l = some ⟨.file old, perms⟩) := by
  obtain ⟨l, hl, hput⟩ := Disk.write?_cases hw
  have hl' := h.symm.resolve?_eq hl
  have hfree : d'.IsFree l → d.IsFree l := fun hfree =>
    (h.node l).elim (fun heq => by rwa [IsFree, ← heq]) And.left
  rcases hput with ⟨hnone, hput⟩ | ⟨⟨content, perms⟩, hn, hdir, hput⟩
  · exact ⟨l, .all, hl', hfree (Or.inl hnone), hput, Or.inl ⟨hnone, rfl⟩⟩
  · have hfile : ∃ old, content = .file old := by
      rcases h.node l with heq | ⟨-, hnone | ⟨old, perms', hold⟩⟩
      · rw [heq] at hn
        have hlink := hd.isLink_of_resolve? hl' hn
        cases content with
        | file old => exact ⟨old, rfl⟩
        | dir => exact absurd hdir (by simp [Node.isDir])
        | link target => exact absurd hlink (by simp [Node.isLink])
      · rw [hn] at hnone
        exact absurd hnone (by simp)
      · rw [hn, Option.some.injEq, Node.mk.injEq] at hold
        exact ⟨old, hold.1⟩
    obtain ⟨old, rfl⟩ := hfile
    exact ⟨l, perms, hl', hfree (Or.inr ⟨old, perms, hn⟩), hput, Or.inr ⟨old, hn⟩⟩

end ImageMigration.Disk
