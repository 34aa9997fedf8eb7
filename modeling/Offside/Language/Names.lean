import Offside.Grammar.Basic

/-!
Names, literals and blocks.
-/

namespace Offside.Language

open Grammar

/-- A lower-case name, possibly qualified. -/
def variableName : Grammar := .token .lower <|> .token .qualifiedLower

/-- A proper name, possibly qualified. -/
def properName : Grammar := .token .upper <|> .token .qualifiedUpper

/-- The name of a module. -/
def moduleName : Grammar := .labeled "module name" (.node .moduleName properName)

/-- A record label; strings may be labels too. -/
def label : Grammar :=
  .labeled "label" (oneOf [.token .lower, .token .string, .token .rawString])

/-- A literal, truth values included. -/
def literalToken : Grammar :=
  oneOf [.token .int, .token .number, .token .string, .token .rawString, .token .char,
    .token .kwTrue, .token .kwFalse]

/-- An operator between parentheses, used as a name. -/
def operatorName : Grammar := parens (.token .operator)

/-- The constructors named after a type in import and export lists: all of them,
or a list. -/
def members : Grammar := parens (.token .dotDot <|> commaSep (.token .upper))

/-- Whether an item of a block ends here. -/
def atItemEnd (view : View) : Bool :=
  view.atEnd || view.isAt .layoutSep || view.isAt .layoutEnd

/-- Whether an item of a block may start here. -/
def mayStartItem (view : View) : Bool := !view.isAt .layoutEnd && !view.atEnd

/-- Where the skipping of a malformed item stops. -/
def itemSync : Grammar := .token .layoutSep <|> .token .layoutEnd

/-- Items with layout separators between them. An item that fails, or that ends
before the next separator, is skipped up to that separator. An empty block
fails without consuming. -/
def items (item : Grammar) (what : String) : Grammar :=
  let complete := item + .lookahead atItemEnd .succeed
  let recovering := .relaxTo ("malformed " ++ what) complete itemSync
  sepBy1 (.lookahead mayStartItem recovering) (.token .layoutSep)

/-- A layout block of items after its keyword. A body that is indented too little
opens no block, and a keyword at the end of the text opens an empty one; both
are reported as missing and parse as nothing, so that the construct around
them is completed. -/
def block (item : Grammar) (what : String) : Grammar :=
  let missing := "missing " ++ what
  .relax missing
    (.token .layoutStart + .relax missing (items item what) + .token .layoutEnd)

end Offside.Language
