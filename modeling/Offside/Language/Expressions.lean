import Offside.Language.Binders
import Offside.Language.Types

/-!
Expressions. From the loosest to the tightest: a type annotation, chains of
operators, negation, application, record access and update, atoms. The forms
that start with a keyword or a lambda are atoms that reach as far to the
right as they can.
-/

namespace Offside.Language

open Grammar

-- ================================================ guards and statements

/-- A binder and the arrow that makes it a bind; taken back unless the arrow is
there. -/
def bindHead : Grammar := .attempt (binder + .token .leftArrow)

/-- A condition, or a pattern that has to match. -/
def guard : Grammar := .node .guard ((bindHead + expr) <|> expr)

/-- An expression after `sep`, or alternatives that are guarded by conditions. -/
def guarded (sep : TokenKind) : Grammar :=
  let alternative :=
    .node .guardedExpr (.token .pipe + commaSep1 guard + .token sep + expr)
  (.token sep + expr) <|> .many alternative 1

/-- The bindings of a `let`. -/
def letBindings : Grammar := .node .letBindings (block localDecl "let binding")

/-- A statement of a `do` or an `ado` block. -/
def statement : Grammar :=
  oneOf
    [.node .doLet (.token .kwLet + letBindings),
     .node .doBind (bindHead + expr),
     .node .doDiscard expr]

-- =================================================== keyword forms

/-- A lambda. -/
def lambda : Grammar :=
  .node .exprLambda (.token .backslash + .many binderAtom 1 + .token .arrow + expr)

/-- A condition with its two branches. -/
def conditional : Grammar :=
  .node .exprIf
    (.token .kwIf + expr + .token .kwThen + expr + .token .kwElse + expr)

/-- A branch of a `case`. -/
def caseBranch : Grammar := .node .caseBranch (commaSep1 binder + guarded .arrow)

/-- A distinction by patterns. -/
def caseOf : Grammar :=
  .node .exprCase
    (.token .kwCase + commaSep1 expr + .token .kwOf + block caseBranch "case branch")

/-- Local declarations in front of an expression. -/
def letIn : Grammar :=
  .node .exprLet (.token .kwLet + letBindings + .token .kwIn + expr)

/-- A block of statements. -/
def doBlock : Grammar := .node .exprDo (.token .kwDo + block statement "do statement")

/-- A block of statements with a result. -/
def adoBlock : Grammar :=
  .node .exprAdo
    (.token .kwAdo + block statement "ado statement" + .token .kwIn + expr)

-- =========================================================== atoms

/-- A field of a record: a label, with an expression or as its own value. -/
def recordField : Grammar :=
  .node .recordField (label + .optional (.literal ":" + expr))

/-- An operator as a name stands here, between its two parentheses. -/
def startsOperatorName (view : View) : Bool :=
  view.nthKind 1 == .operator && view.nthKind 2 == .rightParen

/-- An expression that needs no parentheses anywhere. -/
def atom : Grammar :=
  oneOf
    [.node .exprVar variableName,
     .node .exprConstructor properName,
     .node .exprLiteral literalToken,
     .node .exprHole (.token .hole),
     .node .exprSection (.token .underscore),
     .node .exprOperatorName (.lookahead startsOperatorName operatorName),
     .node .exprParens (parens expr),
     .node .exprArray (squares (commaSep expr)),
     .node .exprRecord (braces (commaSep recordField)),
     lambda, conditional, caseOf, letIn, doBlock, adoBlock]

-- ==================================== access, application, operators

/-- A field with its new value. -/
def assignment : Grammar := .node .recordField (label + .token .equals + expr)

/-- A record update starts here, and not a record as an argument. -/
def startsUpdate (view : View) : Bool :=
  view.isAt .leftBrace && view.nthKind 2 == .equals

/-- An atom with the fields taken of it. -/
def access : Grammar := .fold .exprRecordAccess atom (.token .dot + label)

/-- An atom with the fields taken of it and the updates made to it. -/
def postfixed : Grammar :=
  .fold .exprRecordUpdate access
    (.lookahead startsUpdate (braces (commaSep1 assignment)))

/-- A type given as an argument. -/
def typeArgument : Grammar := .node .exprTypeApp (.token .at + typeAtom)

/-- A function applied to arguments, one by one. -/
def application : Grammar := .fold .exprApp postfixed (postfixed <|> typeArgument)

/-- A minus sign in front of an application. -/
def negation : Grammar := .node .exprNegate (.literal "-" + application)

/-- A name between backquotes, used as an operator. -/
def infixName : Grammar :=
  .node .exprBacktick
    (.token .backtick + (variableName <|> properName) + .token .backtick)

/-- What stands between operators. -/
def operand : Grammar := negation <|> application

/-- The rule for expressions. -/
def expressionRule : Grammar :=
  let chain := .fold .exprOperatorChain operand ((.token .operator <|> infixName) + operand)
  .labeled "expression" (.continuation .exprTyped chain (.token .doubleColon + type))

end Offside.Language
