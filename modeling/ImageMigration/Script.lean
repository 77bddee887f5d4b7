/-
Reading scripts for their literals.

The grammar is a system of readers that call each other through symbols. Here the system is closed:
each use of a symbol spends one unit of an allowance, and the allowance exceeds what the nesting of
a source of that length can use, since a handful of symbols at most stand for each other without a
token in between.

* `Script.Language.ofPath`: the language of a file by its extension;
* `Script.literals?`: the literals of a source in their order. A source with any flaw has none.
-/
import ImageMigration.Path
import ImageMigration.Script.StatementGrammar

namespace ImageMigration.Script

/-- The reader of a symbol, given the readers of the symbols inside it. -/
def readSymbol (g : Grammar) : Symbol → Reader Shape
  | .expression => readExpression g
  | .assignment mayReturnType => readAssignment g mayReturnType
  | .operation level => readOperation g level
  | .unary => readUnary g
  | .access => readAccess g
  | .statement isSingle => do
    readStatement g isSingle
    return .plain
  | .binding => readBinding g
  | .type => readType g
  | .typeOperator => do
    readTypeOperator g
    return .plain
  | .element isChild => readElement g isChild

/-- The readers of all symbols, which may be nested as deep as the allowance. -/
def grammar : Nat → Grammar
  | 0 => fun _ => fail
  | n + 1 => fun symbol => readSymbol (grammar n) symbol

/-- Statements up to the end of the source. -/
def readSourceText (g : Grammar) : Reader Unit :=
  repeatWhile do
    if (← token).kind == .ending then return false
    let _ ← g (.statement false)
    return true

/-- The language of a file, by the extension of its name. A file with an extension of no language
may hold everything. -/
def Language.ofPath (path : Path) : Language :=
  let everything : Language :=
    { types := true, tags := true, isModule := true, declarations := false }
  match path.fileName? with
  | none => everything
  | some name =>
    let isDeclaration (ending : String) : Bool := Text.endsWith name ending.toList
    match (path.extension?.getD []) with
    | ['j', 's'] | ['m', 'j', 's'] => { everything with types := false, tags := false }
    | ['c', 'j', 's'] => { everything with types := false, tags := false, isModule := false }
    | ['j', 's', 'x'] => { everything with types := false }
    | ['t', 's'] => { everything with tags := false, declarations := isDeclaration ".d.ts" }
    | ['m', 't', 's'] => { everything with tags := false, declarations := isDeclaration ".d.mts" }
    | ['c', 't', 's'] =>
      { everything with tags := false, isModule := false, declarations := isDeclaration ".d.cts" }
    | _ => everything

/-- What the surroundings of a whole source permit. -/
def Mode.start (language : Language) (source : Text) : Mode :=
  { language, bound := source.length, allowsIn := true, inGenerator := false,
    inAsync := language.isModule, inFunction := !language.isModule, inDecorator := false,
    isAmbient := language.declarations, noConditional := false }

/-- The place in front of a source. A first line that names an interpreter is passed over. -/
def Cursor.start (language : Language) (source : Text) : Cursor :=
  let (body, offset) :=
    if source.startsWith ['#', '!'] then skipLine source 0 else (source, 0)
  let (token, here, behind) := tokenFrom language.isModule true source.length body offset
  { token, here, behind, literals := [], isFlawed := false, openDefaults := [], notFunctions := [],
    exported := [] }

/-- The literals of a source, in the order of their places. -/
def literalsIn? (language : Language) (source : Text) : Option (List Literal) :=
  let reader := readSourceText (grammar (16 * source.length + 64))
  match (reader (Mode.start language source)).run.run (Cursor.start language source) with
  | (.ok _, c) =>
    if c.isFlawed || !c.openDefaults.isEmpty then none
    else some (c.literals.reverse.mergeSort fun a b => a.span.start ≤ b.span.start)
  | (.error _, _) => none

/-- The literals of a file with the given path and source. -/
def literals? (path : Path) (source : Text) : Option (List Literal) :=
  literalsIn? (Language.ofPath path) source

end ImageMigration.Script
