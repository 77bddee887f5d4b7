/-
The program as it is started.

Its arguments are the command line, and its input is a listing of the project, as made by
`find "$PWD" -printf '%y %m %p\n'`. The files of the listing are read, the command is carried out on
their tree, and what it changed is changed in the files, too.
-/
import ImageMigration.Disk.Listing
import ImageMigration.Program

namespace ImageMigration

/-- The lines of an input up to its end. -/
partial def readLines (input : IO.FS.Stream) (lines : Array Text) : IO (Array Text) := do
  let line ← input.getLine
  if line.isEmpty then return lines
  readLines input (lines.push (line.toList.filter (· ≠ '\n')))

/-- A listed entry with its contents. A file that cannot be read keeps its place in the tree. -/
def readEntry (e : Listing.Entry) : IO (Listing.Entry × Content) := do
  match e.kind with
  | .dir => return (e, .dir)
  | .file =>
    try
      return (e, .file (← IO.FS.readBinFile (String.ofList e.path.text)))
    catch _ =>
      return ({ e with permissions := { e.permissions with read := false } }, .file .empty)

/-- Makes a change in the files. -/
def applyChange (change : Disk.Change) : IO Unit := do
  match change with
  | .makeDir path => IO.FS.createDirAll (String.ofList path.text)
  | .write path bytes => IO.FS.writeBinFile (String.ofList path.text) bytes
  | .remove path => IO.FS.removeFile (String.ofList path.text)

end ImageMigration

open ImageMigration in
/-- Carries out the command line on the listed files. -/
def main (args : List String) : IO UInt32 := do
  let lines ← readLines (← IO.getStdin) #[]
  let entries ← (lines.toList.filterMap Listing.Entry.ofLine?).mapM readEntry
  let before := Disk.ofListing entries
  let exit := execute before (args.map String.toList)
  (Disk.changes before exit.disk).forM applyChange
  (← IO.getStderr).putStr (String.ofList exit.errors)
  (← IO.getStdout).putStr (String.ofList exit.output)
  return UInt32.ofNat exit.code
