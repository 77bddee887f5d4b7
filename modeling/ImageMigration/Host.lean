/-
The machine that a run works on: its files, its log, and the operations that are bound to fail.

Operations fail for reasons of the tree, such as missing permissions, and for reasons beyond it. The
latter are a schedule: it says at each moment which operation on which path does not succeed. A
failed operation leaves the tree as it was.

* `Faults`: schedules of failures; `Faults.none` has none;
* `Host`: the machine; `Host.attempt` performs an operation, `Host.report` adds to the log.
-/
import ImageMigration.Disk
import ImageMigration.Event

namespace ImageMigration

/-- Which operations fail: by the number of operations before, the operation and the path. -/
abbrev Faults := Nat → Operation → Path → Option OsError

/-- Nothing fails but for reasons of the tree. -/
def Faults.none : Faults := fun _ _ _ => Option.none

/-- A machine in the course of a run. -/
structure Host where
  disk : Disk
  faults : Faults
  /-- the number of operations so far -/
  clock : Nat
  /-- the events so far -/
  log : List Event

namespace Host

/-- A machine with the given files, on which nothing has happened. -/
def ofDisk (disk : Disk) : Host := ⟨disk, Faults.none, 0, []⟩

/-- Adds an event to the log. -/
def report (h : Host) (e : Event) : Host := { h with log := h.log ++ [e] }

/-- Adds events to the log. -/
def reportAll (h : Host) (es : List Event) : Host := { h with log := h.log ++ es }

/-- Performs an operation on the tree. -/
def attempt {α : Type} (h : Host) (operation : Operation) (path : Path)
    (action : Disk → Except OsError (α × Disk)) : Except OsError α × Host :=
  match h.faults h.clock operation path with
  | some e => (.error e, { h with clock := h.clock + 1 })
  | none =>
    match action h.disk with
    | .error e => (.error e, { h with clock := h.clock + 1 })
    | .ok (a, disk) => (.ok a, { h with disk, clock := h.clock + 1 })

/-- Performs an operation that only looks at the tree. -/
def look {α : Type} (h : Host) (operation : Operation) (path : Path)
    (action : Disk → Except OsError α) : Except OsError α × Host :=
  h.attempt operation path fun d => (action d).map fun a => (a, d)

/-- Performs an operation that only changes the tree. -/
def change (h : Host) (operation : Operation) (path : Path)
    (action : Disk → Except OsError Disk) : Except OsError Unit × Host :=
  h.attempt operation path fun d => (action d).map fun d => ((), d)

end Host

end ImageMigration
