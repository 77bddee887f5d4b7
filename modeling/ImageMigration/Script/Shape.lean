/-
What an expression looks like to the grammar around it, and the symbols of the grammar.

The rest of the grammar asks little of an expression: whether it may be assigned to, whether an
array or object could be read as a pattern, whether operators next to it need parentheses.

* `Shape`: these facts; `Shape.isTarget`, `asTarget`: being assigned to;
* `Symbol`: the parts of the grammar that can contain themselves. A reader that needs one gets it
  through a function on symbols, so that recursion is in one place.
-/
import ImageMigration.Script.Cursor

namespace ImageMigration.Script

/-- The operators that may not be mixed without parentheses. -/
inductive Logic where
  /-- `&&` and `||` -/
  | connective
  /-- `??` -/
  | coalesce
  deriving DecidableEq, Inhabited

/-- What the grammar asks of an expression that was read. -/
structure Shape where
  /-- the name, if the expression is one -/
  name : Option String
  /-- a name or a member, which may be assigned to as it is -/
  isSimple : Bool
  /-- an array or object that can be read as a pattern -/
  isPattern : Bool
  /-- an array or object -/
  isLiteral : Bool
  /-- an assignment by `=` -/
  isAssignment : Bool
  logic : Option Logic
  /-- an operator in front, which `**` does not take as its base -/
  isSigned : Bool
  /-- types in angles at the end -/
  hasTypeArguments : Bool
  /-- the properties with a default that become right in a pattern -/
  openDefaults : List Nat
  /-- the names that a pattern binds -/
  bound : List String
  deriving Inhabited

namespace Shape

/-- An expression without special features. -/
def plain : Shape :=
  { name := none, isSimple := false, isPattern := false, isLiteral := false, isAssignment := false,
    logic := none, isSigned := false, hasTypeArguments := false, openDefaults := [], bound := [] }

/-- A name. -/
def ofName (name : String) : Shape := { plain with name := some name, isSimple := true }

/-- A member of an object. -/
def member : Shape := { plain with isSimple := true }

/-- A pattern that binds names. -/
def binding (names : List String) : Shape := { plain with bound := names }

/-- Whether an expression may stand on the left of `=`. -/
def isTarget (s : Shape) : Bool := s.isSimple || s.isPattern

/-- Whether an expression may be an item of a pattern. -/
def isItem (s : Shape) : Bool := s.isTarget || s.isAssignment

/-- An expression in parentheses. -/
def parenthesized (s : Shape) : Shape := { plain with isSimple := s.isSimple }

end Shape

/-- Takes an expression as the target of an assignment. -/
def asTarget (s : Shape) : Reader Unit := do
  unless s.isTarget do fail
  modify fun c => { c with openDefaults := c.openDefaults.filter fun p => !s.openDefaults.contains p }

/-- Takes an expression as a target that is no pattern. -/
def asSimpleTarget (s : Shape) : Reader Unit := do unless s.isSimple do fail

/-- The parts of the grammar that contain themselves. -/
inductive Symbol where
  /-- expressions with commas -/
  | expression
  /-- expressions without commas; a function with arrow may state its return type or not -/
  | assignment (mayReturnType : Bool)
  /-- operands joined by operators that bind tighter than a level -/
  | operation (level : Nat)
  /-- an operand with the operators in front of it -/
  | unary
  /-- an operand with calls and members behind it -/
  | access
  | statement (isSingle : Bool)
  /-- a pattern that binds names -/
  | binding
  | type
  /-- a type with the operators in front of it -/
  | typeOperator
  /-- an element in angle brackets, inside another or not -/
  | element (isChild : Bool)
  deriving DecidableEq

/-- A reader for every symbol. -/
abbrev Grammar := Symbol → Reader Shape

namespace Grammar

/-- An expression, in which `in` is an operator. -/
def expression (g : Grammar) : Reader Shape :=
  inMode (fun m => { m with allowsIn := true, inDecorator := false }) (g .expression)

/-- An expression without commas, in which `in` is an operator. -/
def assignment (g : Grammar) : Reader Shape :=
  inMode (fun m => { m with allowsIn := true, inDecorator := false }) (g (.assignment true))

/-- A type that may go on with `extends`. -/
def type (g : Grammar) : Reader Unit := do
  let _ ← inMode (fun m => { m with noConditional := false }) (g .type)

end Grammar

end ImageMigration.Script
