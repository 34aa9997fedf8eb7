import Offside.Grammar.Basic
import Offside.Layout.Rules

/-!
The recursive rules of the language, and its layout table.

Expressions, types, binders and local declarations refer to each other. They
do so by number; the table that gives the numbers their bodies is built where
all four are defined.
-/

namespace Offside.Language

open Grammar

/-- A rule that other rules refer to. -/
inductive RuleName
  | expression
  | type
  | binder
  /-- A binding in a `let`, a `where` or an instance: a signature or a value. -/
  | localDeclaration
  deriving DecidableEq, Inhabited

/-- The description of a rule in messages. -/
def RuleName.describe : RuleName → String
  | .expression => "expression"
  | .type => "type"
  | .binder => "binder"
  | .localDeclaration => "local declaration"

/-- The number of a rule in the table. -/
def RuleName.number (rule : RuleName) : Nat := rule.ctorIdx

/-- The grammar that stands for a rule. -/
def ruleRef (rule : RuleName) : Grammar := .reference rule.describe rule.number

/-- An expression. -/
def expr : Grammar := ruleRef .expression

/-- A type. -/
def type : Grammar := ruleRef .type

/-- A binder. -/
def binder : Grammar := ruleRef .binder

/-- A local declaration. -/
def localDecl : Grammar := ruleRef .localDeclaration

/-- What the tokens of the language do to the layout. Names and strings may be
record labels. The heads of data and class declarations mask bars and `where`
until their body starts. -/
def layoutRules : Layout.Rules where
  action
    | .lower | .string | .rawString => .label
    | .kwData | .kwClass => .declHead
    | .kwWhere => .whereKeyword
    | .kwIn => .inKeyword
    | .kwLet => .letKeyword
    | .kwDo => .doKeyword
    | .kwAdo => .adoKeyword
    | .kwCase => .caseKeyword
    | .kwOf => .ofKeyword
    | .kwIf => .ifKeyword
    | .kwThen => .thenKeyword
    | .kwElse => .elseKeyword
    | .kwForall => .forallKeyword
    | .backslash => .backslash
    | .arrow => .arrow
    | .equals => .equals
    | .pipe => .pipe
    | .backtick => .tick
    | .comma => .comma
    | .dot => .dot
    | .leftParen => .openParen
    | .leftBrace => .openBrace
    | .leftSquare => .openSquare
    | .rightParen => .closeParen
    | .rightBrace => .closeBrace
    | .rightSquare => .closeSquare
    | .operator => .operator
    | _ => .default

end Offside.Language
