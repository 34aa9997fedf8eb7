import Offside.Language.Names
import Offside.Language.Rules

/-!
Binders: the patterns of function arguments, case branches and statements.
-/

namespace Offside.Language

open Grammar

/-- A number with a minus sign. -/
def negativeNumber : Grammar := .literal "-" + (.token .int <|> .token .number)

/-- A field of a record binder: a label, with a binder or as its own binder. -/
def binderField : Grammar :=
  .node .recordField (label + .optional (.literal ":" + binder))

/-- A binder with an optional type. -/
def typedBinder : Grammar :=
  .continuation .binderTyped binder (.token .doubleColon + type)

/-- The atoms other than variables. -/
def closedBinders : List Grammar :=
  [.node .binderWildcard (.token .underscore),
   .node .binderLiteral (literalToken <|> negativeNumber),
   .node .binderConstructor properName,
   .node .binderRecord (braces (commaSep binderField)),
   .node .binderArray (squares (commaSep binder)),
   .node .binderParens (parens typedBinder)]

/-- A variable, with an optional binder for the same value. -/
def namedBinder : Grammar :=
  .continuation .binderNamed (.node .binderVar (.token .lower))
    (.token .at + oneOf closedBinders)

/-- A binder that needs no parentheses as an argument. -/
def binderAtom : Grammar := oneOf (namedBinder :: closedBinders)

/-- The rule for binders: a constructor with arguments, or an atom. -/
def binderRule : Grammar :=
  .labeled "binder"
    (.node .binderConstructor (properName + .many binderAtom 0) <|> binderAtom)

end Offside.Language
