import Offside.Language.Names
import Offside.Language.Rules

/-!
Types. From the loosest to the tightest: `forall`, constraints, arrows,
application, atoms.
-/

namespace Offside.Language

open Grammar

/-- A row starts here: a parenthesis with a bar, nothing, or a label and its
type inside. A parenthesised type does not. -/
def startsRow (view : View) : Bool :=
  match view.nthKind 1 with
  | .pipe | .rightParen => true
  | .lower | .string | .rawString => view.nthKind 2 == .doubleColon
  | _ => false

/-- A field of a row. -/
def rowField : Grammar := .node .rowField (label + .token .doubleColon + type)

/-- Labelled fields with an optional tail. -/
def row : Grammar := commaSep rowField + .optional (.token .pipe + type)

/-- A type with an optional kind. -/
def kindedType : Grammar := .continuation .typeKinded type (.token .doubleColon + type)

/-- A type that needs no parentheses as an argument. -/
def typeAtom : Grammar :=
  oneOf
    [.node .typeVar (.token .lower),
     .node .typeConstructor properName,
     .node .typeWildcard (.token .underscore),
     .node .typeHole (.token .hole),
     .node .typeStringLiteral (.token .string <|> .token .rawString),
     .node .typeRow (.lookahead startsRow (parens row)),
     .node .typeParens (parens (commaSep1 kindedType)),
     .node .typeRecord (braces row)]

/-- An atom applied to atoms. -/
def typeApplication : Grammar := .fold .typeApp typeAtom typeAtom

/-- A type variable that is introduced, with an optional kind in parentheses. -/
def typeVarBinding : Grammar :=
  .node .typeVarBinding
    (oneOf [.token .lower, parens (.token .lower + .token .doubleColon + type)])

/-- The constraints of a class or an instance: one application, or a list in
parentheses. -/
def constraints : Grammar := parens (commaSep1 typeApplication) <|> typeApplication

/-- A type with the variables it binds. -/
def forallType : Grammar :=
  .node .typeForall (.token .kwForall + .many typeVarBinding 1 + .token .dot + type)

/-- A type under constraints, with arrows. -/
def constrainedType : Grammar :=
  .continuation .typeConstrained
    (.continuation .typeArrow typeApplication (.token .arrow + type))
    (.token .fatArrow + type)

/-- The rule for types. -/
def typeRule : Grammar := .labeled "type" (forallType <|> constrainedType)

end Offside.Language
