import Offside.Language.Declarations
import Offside.Layout.Blocks
import Offside.Parse.Basic
import Offside.Token.Reading

/-!
The whole front end for one source text: tokens, layout, tree.

A text is parsed as one of seven categories, a whole module by default. The
diagnostics on tokens come before those of the parse.
-/

namespace Offside.Language

/-- A category that a text can be parsed as. -/
inductive Entry
  | wholeModule
  | declaration
  | importDecl
  | binding
  | expr
  | type
  | binder
  deriving DecidableEq, Inhabited

namespace Entry

/-- Every category, in the order in which help lists them. -/
def all : List Entry := [.wholeModule, .declaration, .importDecl, .binding, .expr, .type, .binder]

/-- The name of a category on the command line. -/
def name : Entry → String
  | .wholeModule => "module"
  | .declaration => "declaration"
  | .importDecl => "import"
  | .binding => "binding"
  | .expr => "expr"
  | .type => "type"
  | .binder => "binder"

/-- The category of a name. -/
def ofName? (text : String) : Option Entry := all.find? fun entry => entry.name == text

/-- The grammar of a category. -/
def grammar : Entry → Grammar
  | .wholeModule => Language.wholeModule
  | .declaration => Language.declaration
  | .importDecl => Language.importDecl
  | .binding => localDecl
  | .expr => Language.expr
  | .type => Language.type
  | .binder => Language.binder

end Entry

/-- The body of a rule. -/
def RuleName.body : RuleName → Grammar
  | .expression => expressionRule
  | .type => typeRule
  | .binder => binderRule
  | .localDeclaration => localRule

/-- The rules, by number. -/
def ruleTable : RuleTable
  | 0 => some (RuleName.body .expression)
  | 1 => some (RuleName.body .type)
  | 2 => some (RuleName.body .binder)
  | 3 => some (RuleName.body .localDeclaration)
  | _ => none

/-- The number of rules in the table. -/
def ruleCount : Nat := 4

theorem ruleTable_number (rule : RuleName) : ruleTable rule.number = some rule.body := by
  cases rule <;> rfl

/-- The input that a source text makes: its tokens with the blocks explicit. -/
def inputOf (source : String) : Input :=
  let reading := Reading.ofSource source
  .ofTokens source (Layout.tokensOf layoutRules reading.tokens reading.eof)

/-- The parse of a source text as a category. -/
def parse (entry : Entry) (source : String) : Parse :=
  let reading := Reading.ofSource source
  (Parse.ofInput ruleTable entry.grammar (inputOf source)).prependDiagnostics
    reading.diagnostics

/-- The diagnostics on tokens stand in front of those of the parse. -/
theorem diagnostics_parse (entry : Entry) (source : String) :
    (parse entry source).diagnostics = (Reading.ofSource source).diagnostics
      ++ (Parse.ofInput ruleTable entry.grammar (inputOf source)).diagnostics := rfl

/-- What an entry gives back is the tree of its grammar's reply on the layout of the source. -/
theorem tree_parse (entry : Entry) (source : String) :
    (parse entry source).tree
      = (Parse.ofInput ruleTable entry.grammar (inputOf source)).tree := by
  unfold parse Parse.prependDiagnostics
  dsimp only

end Offside.Language
