/-
The command line.

A command line asks for a run, for a configuration file, or for a word about the program itself. An
option stands in one argument with its value or in front of it; single letters can share an
argument; behind `--` nothing is an option. Arguments are read from left to right, and the first one
that asks for help or cannot be understood ends the reading.

* `Argument`: an argument by its form;
* `RunOptions`: what is said about a run; `RunReading.step` reads one argument of it;
* `Command.ofArguments?`: what a whole command line asks for, if it can be understood.
-/
import ImageMigration.Path

namespace ImageMigration

/-! ### Forms of arguments -/

/-- An argument by its form. -/
inductive Argument where
  /-- the end of the options -/
  | escape
  /-- an option by its name, perhaps with a value -/
  | long (name : Text) (value : Option Text)
  /-- options by their letters; what follows a letter may be its value -/
  | short (letters : Text)
  | plain (t : Text)
  deriving DecidableEq, Inhabited

/-- A text cut at the first `=`. -/
def splitValue (t : Text) : Text × Option Text :=
  match t.dropWhile (· ≠ '=') with
  | [] => (t, none)
  | _ :: value => (t.takeWhile (· ≠ '='), some value)

/-- The form of an argument. A lone `-` is a plain one. -/
def Argument.ofText (t : Text) : Argument :=
  match t with
  | ['-', '-'] => escape
  | '-' :: '-' :: rest =>
    let (name, value) := splitValue rest
    long name value
  | '-' :: c :: rest => short (c :: rest)
  | t => plain t

/-- Why the reading of a command line ends early. -/
inductive Stop where
  /-- an argument cannot be understood -/
  | misuse
  /-- help is asked for -/
  | help
  deriving DecidableEq, Inhabited

/-! ### A run -/

/-- What a command line says about a run. -/
structure RunOptions where
  dir : Option Path
  dryRun : Bool
  quality : Option Nat
  deleteReplaced : Bool
  /-- how often more lines in the log are asked for -/
  verbosity : Nat
  config : Option Path
  logDir : Option Path
  json : Bool
  deriving DecidableEq, Inhabited

/-- Nothing is said. -/
def RunOptions.nothing : RunOptions :=
  { dir := none, dryRun := false, quality := none, deleteReplaced := false,
    verbosity := 0, config := none, logDir := none, json := false }

/-- The options that take a value. -/
inductive Setting where
  | quality
  | config
  | logDir
  deriving DecidableEq, Inhabited

/-- The options that take none. -/
inductive Switch where
  | dryRun
  | deleteReplaced
  | verbose
  | json
  | help
  deriving DecidableEq, Inhabited

/-- The setting of a name. -/
def Setting.ofName? (name : Text) : Option Setting :=
  if name = "quality".toList then some quality
  else if name = "config".toList then some config
  else if name = "log-dir".toList then some logDir
  else none

/-- The switch of a name. -/
def Switch.ofName? (name : Text) : Option Switch :=
  if name = "dry-run".toList then some dryRun
  else if name = "delete-originals".toList then some deleteReplaced
  else if name = "verbose".toList then some verbose
  else if name = "json".toList then some json
  else if name = "help".toList then some help
  else none

/-- The setting of a letter. -/
def Setting.ofLetter? : Char → Option Setting
  | 'q' => some quality
  | 'c' => some config
  | _ => none

/-- The switch of a letter. -/
def Switch.ofLetter? : Char → Option Switch
  | 'v' => some verbose
  | 'h' => some help
  | _ => none

/-- A number in decimal digits, at least one. -/
def decimal? (t : Text) : Option Nat :=
  if !t.isEmpty && t.all Char.isDigit then
    some (t.foldl (fun n c => 10 * n + (c.toNat - '0'.toNat)) 0)
  else none

/-- The greatest quality that can be asked for. Not all of them can be used. -/
def maxQualityArgument : Nat := 255

/-- A quality. It may have a sign, but it may not be negative. -/
def quality? (t : Text) : Option Nat :=
  match t with
  | '+' :: digits => (decimal? digits).filter (· ≤ maxQualityArgument)
  | '-' :: digits => (decimal? digits).filter (· = 0)
  | digits => (decimal? digits).filter (· ≤ maxQualityArgument)

/-- A path, which may not be empty. -/
def pathArgument? (t : Text) : Option Path := if t.isEmpty then none else some ⟨t⟩

/-- The most that can be said about the lines in the log. -/
def maxVerbosity : Nat := 255

namespace RunOptions

/-- Gives a value to a setting that has none. -/
def set? (o : RunOptions) (setting : Setting) (value : Text) : Option RunOptions :=
  match setting with
  | .quality =>
    if o.quality.isSome then none
    else (quality? value).map fun q => { o with quality := some q }
  | .config =>
    if o.config.isSome then none
    else (pathArgument? value).map fun p => { o with config := some p }
  | .logDir =>
    if o.logDir.isSome then none
    else (pathArgument? value).map fun p => { o with logDir := some p }

/-- Turns a switch on. Only the one for more lines in the log can be turned on again. -/
def turnOn (o : RunOptions) (switch : Switch) : Except Stop RunOptions :=
  match switch with
  | .dryRun => if o.dryRun then .error .misuse else .ok { o with dryRun := true }
  | .deleteReplaced =>
    if o.deleteReplaced then .error .misuse else .ok { o with deleteReplaced := true }
  | .json => if o.json then .error .misuse else .ok { o with json := true }
  | .verbose => .ok { o with verbosity := min (o.verbosity + 1) maxVerbosity }
  | .help => .error .help

/-- Takes a directory, if none is named yet. -/
def takeDir? (o : RunOptions) (t : Text) : Option RunOptions :=
  if o.dir.isSome then none
  else (pathArgument? t).map fun p => { o with dir := some p }

end RunOptions

/-- How far the arguments of a run have been read. -/
structure RunReading where
  options : RunOptions
  /-- the setting whose value is the next argument -/
  pending : Option Setting
  /-- nothing that follows is an option -/
  escaped : Bool
  deriving DecidableEq, Inhabited

/-- A value, or misuse. -/
def orMisuse {α : Type} : Option α → Except Stop α
  | some a => .ok a
  | none => .error .misuse

namespace RunReading

/-- Reads options by their letters. The first one that takes a value takes all that follows it,
without an `=` in front. -/
def readLetters (r : RunReading) : Text → Except Stop RunReading
  | [] => .ok r
  | c :: rest =>
    match Setting.ofLetter? c with
    | some setting =>
      match rest with
      | [] => .ok { r with pending := some setting }
      | '=' :: value => do .ok { r with options := ← orMisuse (r.options.set? setting value) }
      | value => do .ok { r with options := ← orMisuse (r.options.set? setting value) }
    | none => do
      let options ← r.options.turnOn (← orMisuse (Switch.ofLetter? c))
      readLetters { r with options } rest

/-- Reads an option by its name. -/
def readName (r : RunReading) (name : Text) (value : Option Text) : Except Stop RunReading :=
  match Setting.ofName? name, value with
  | some setting, some value => do
    .ok { r with options := ← orMisuse (r.options.set? setting value) }
  | some setting, none => .ok { r with pending := some setting }
  | none, some _ => .error .misuse
  | none, none => do
    .ok { r with options := ← r.options.turnOn (← orMisuse (Switch.ofName? name)) }

/-- Reads an argument that is no option. -/
def readPlain (r : RunReading) (t : Text) : Except Stop RunReading :=
  match r.pending with
  | some setting => do
    .ok { r with options := ← orMisuse (r.options.set? setting t), pending := none }
  | none => do .ok { r with options := ← orMisuse (r.options.takeDir? t) }

/-- Reads an argument. -/
def step (r : RunReading) (t : Text) : Except Stop RunReading :=
  if r.escaped then r.readPlain t
  else match Argument.ofText t with
    | .plain t => r.readPlain t
    | form =>
      if r.pending.isSome then .error .misuse
      else match form with
        | .escape => .ok { r with escaped := true }
        | .long name value => r.readName name value
        | .short letters => r.readLetters letters
        | .plain t => r.readPlain t

/-- What has been read, if no value is missing. -/
def finish (r : RunReading) : Except Stop RunOptions :=
  if r.pending.isSome then .error .misuse else .ok r.options

end RunReading

/-- What arguments say about a run. -/
def RunOptions.ofArguments? (args : List Text) : Except Stop RunOptions := do
  (← args.foldlM RunReading.step ⟨RunOptions.nothing, none, false⟩).finish

/-! ### Commands -/

/-- What a command line asks for. -/
inductive Command where
  | run (options : RunOptions)
  | generateConfig (file : Path)
  | version
  | help
  deriving DecidableEq, Inhabited

/-- Where a configuration file is generated if nothing else is said. -/
def defaultConfigFile : Path := ⟨"pixcrush.json".toList⟩

/-- The file that the arguments of the generation of a configuration name, if any. -/
def configFile? (escaped : Bool) (file : Option Path) : List Text → Except Stop (Option Path)
  | [] => .ok file
  | t :: rest =>
    match escaped, Argument.ofText t with
    | false, .escape => configFile? true file rest
    | false, .long name none => .error (if name = "help".toList then .help else .misuse)
    | false, .long _ (some _) => .error .misuse
    | false, .short letters => .error (if letters.head? = some 'h' then .help else .misuse)
    | _, _ =>
      match file, pathArgument? t with
      | none, some p => configFile? escaped (some p) rest
      | _, _ => .error .misuse

/-- What help can be asked about. -/
def isHelpTopic : List Text → Bool
  | [] => true
  | topic :: rest =>
    if topic = "help".toList then isHelpTopic rest
    else (topic = "run".toList || topic = "generate-config".toList) && rest.isEmpty

namespace Command

/-- The command of a name with its arguments. -/
def ofName (name : Text) (args : List Text) : Except Stop Command :=
  if name = "run".toList then (RunOptions.ofArguments? args).map run
  else if name = "generate-config".toList then
    (configFile? false none args).map fun file => generateConfig (file.getD defaultConfigFile)
  else if name = "help".toList then
    .error (if isHelpTopic args then .help else .misuse)
  else .error .misuse

/-- What a command line asks for. -/
def read : List Text → Except Stop Command
  | [] => .error .misuse
  | t :: rest =>
    match Argument.ofText t with
    | .plain name => ofName name rest
    | .long name none =>
      if name = "version".toList then .ok version
      else .error (if name = "help".toList then .help else .misuse)
    | .short ('V' :: _) => .ok version
    | .short ('h' :: _) => .error .help
    | _ => .error .misuse

/-- What a command line asks for, if it can be understood. -/
def ofArguments? (args : List Text) : Option Command :=
  match read args with
  | .ok command => some command
  | .error .help => some help
  | .error .misuse => none

end Command

end ImageMigration
