/-
The program: what a command does to a tree of files, and what it says.

* `RunOptions.config?`: the settings of a run, from a file and from the command line;
* `Exit`: what the program leaves behind;
* `Command.execute`: a command; `execute` a command line.
-/
import ImageMigration.CommandLine
import ImageMigration.Migration
import ImageMigration.Summary.Document

namespace ImageMigration

/-- What the program leaves behind. -/
structure Exit where
  disk : Disk
  code : Nat
  output : Text
  errors : Text
  deriving Inhabited

namespace Exit

/-- Everything went well. -/
def success (disk : Disk) (output errors : Text) : Exit := ⟨disk, 0, output, errors⟩

/-- The program gave up. -/
def failure (disk : Disk) (errors : Text) (cause : Failure) : Exit :=
  ⟨disk, 1, [], errors ++ "Error: ".toList ++ cause.message ++ ['\n']⟩

/-- The command line cannot be understood. -/
def misuse (disk : Disk) (errors : Text) : Exit := ⟨disk, 2, [], errors⟩

end Exit

/-! ### What the program says about itself -/

/-- The name and the version of the program. -/
def versionText : Text := "pixcrush 0.1.0\n".toList

/-- How the program is used. -/
def usageText : Text :=
  ("Usage: pixcrush run [DIR] [--dry-run] [-q QUALITY] [--delete-originals] [-v]... [-c FILE] " ++
    "[--log-dir DIR] [--json]\n       pixcrush generate-config [FILE]\n").toList

/-! ### Settings -/

namespace RunOptions

/-- How loud the log is when more lines are asked for. -/
def level (o : RunOptions) (configured : Level) : Level :=
  match o.verbosity with
  | 0 => configured
  | 1 => .debug
  | _ => .trace

/-- The settings with what the command line says. -/
def override (o : RunOptions) (config : Config) : Config :=
  { config with
    targetDir := o.dir.getD config.targetDir
    dryRun := config.dryRun || o.dryRun
    deleteReplaced := config.deleteReplaced || o.deleteReplaced
    quality := o.quality.getD config.quality
    verbose := config.verbose || decide (0 < o.verbosity)
    logLevel := o.level config.logLevel }

/-- The settings of a run. -/
def config? (o : RunOptions) (disk : Disk) : Except Failure Config :=
  match o.config with
  | none => .ok (o.override Config.default)
  | some file => (Config.load? disk file).map o.override

end RunOptions

/-! ### The log -/

/-- The log file in a directory. -/
def logFile (dir : Path) : Path := dir.join ⟨"pixcrush.log".toList⟩

/-- The tree with the directory of the log and the log file in it. -/
def openLog? (disk : Disk) (dir : Path) : Except Failure Disk :=
  match disk.makeDirs? dir with
  | .error e => .error (.io e)
  | .ok disk =>
    match disk.append? (logFile dir) ByteArray.empty with
    | .error e => .error (.configuration (.logFile (logFile dir) e))
    | .ok disk => .ok disk

/-- Lines of a log for the log file. -/
def logText (level : Level) (log : List Event) : Text :=
  (log.filter (Event.isLogged level)).flatMap fun e => e.line ++ ['\n']

/-- Lines of a log for the terminal. -/
def terminalText (level : Level) (log : List Event) : Text :=
  (log.filter (Event.isLogged level)).flatMap fun e =>
    '[' :: e.level.label ++ ']' :: ' ' :: e.message ++ ['\n']

/-- The louder one of two levels. -/
def Level.louder (a b : Level) : Level := if a.rank ≤ b.rank then a else b

/-- The tree with the lines of a log in the log file. -/
def Disk.withLog (disk : Disk) (logDir : Option Path) (level : Level) (log : List Event) : Disk :=
  match logDir with
  | none => disk
  | some dir =>
    match disk.append? (logFile dir) (logText level log).toUtf8 with
    | .ok disk => disk
    | .error _ => disk

/-- What the terminal shows of a log: warnings only, if there is a log file. -/
def shownLog (logDir : Option Path) (level : Level) (log : List Event) : Text :=
  match logDir with
  | none => terminalText level log
  | some _ => terminalText (level.louder .warn) log

/-! ### Commands -/

/-- What a finished run prints. -/
def RunOptions.report (o : RunOptions) (m : Migration) (disk : Disk) (s : Summary) : Text :=
  if o.json then s.render ++ ['\n']
  else s.report m.config.dryRun (disk.absoluteDir m.config.targetDir)

/-- A run on a machine, with the lines that frame it in the log. -/
def Migration.runLogged (m : Migration) (h : Host) : Except Failure Summary × Host :=
  match m.config.check? h.disk with
  | some cause => (.error cause, h)
  | none =>
    match m.run (h.report .starting) with
    | (.ok s, h) => (.ok s, h.report .complete)
    | (.error cause, h) => (.error cause, h)

/-- A run whose log has been opened. -/
def RunOptions.finish (o : RunOptions) (m : Migration) (disk : Disk) : Exit :=
  let opening := o.logDir.toList.map fun dir => Event.loggingTo (logFile dir)
  let (result, h) := m.runLogged ((Host.ofDisk disk).reportAll opening)
  let level := m.config.logLevel
  let after := h.disk.withLog o.logDir level h.log
  let shown := shownLog o.logDir level h.log
  match result with
  | .error cause => .failure after shown cause
  | .ok s => .success after (o.report m disk s) shown

/-- A run. -/
def RunOptions.execute (o : RunOptions) (converter : Converter) (parser : ParserOf) (disk : Disk) :
    Exit :=
  match o.config? disk with
  | .error cause => .failure disk [] cause
  | .ok config =>
    let m : Migration := ⟨config, converter, parser⟩
    match o.logDir with
    | none => o.finish m disk
    | some dir =>
      match openLog? disk dir with
      | .error cause => .failure disk [] cause
      | .ok disk => o.finish m disk

/-- The generation of a configuration file. -/
def generateConfig (disk : Disk) (file : Path) : Exit :=
  match Config.default.save? disk file with
  | .error cause => .failure disk [] cause
  | .ok disk =>
    .success disk ("Configuration file generated at: ".toList ++ file.text ++ ['\n']) []

/-- What a command does. -/
def Command.execute (converter : Converter) (parser : ParserOf) (disk : Disk) : Command → Exit
  | .run options => options.execute converter parser disk
  | .generateConfig file => ImageMigration.generateConfig disk file
  | .version => .success disk versionText []
  | .help => .success disk usageText []

/-- What a command line does. -/
def execute (disk : Disk) (args : List Text) : Exit :=
  match Command.ofArguments? args with
  | some command => command.execute .webp Script.literals? disk
  | none => .misuse disk usageText

end ImageMigration
