/-!
The kinds of token.

The sixty-four kinds stand in a fixed order, which is the order of every
list of kinds shown to the user. A kind has a name of its own and a
description for messages that say what was expected; two kinds of string
share one description.
-/

namespace Offside

/-- What a token is, without its text. The first group is trivia, the second
the virtual tokens that mark blocks, then literals, names, keywords, brackets,
reserved symbols, malformed input and the end of the tokens. -/
inductive TokenKind
  | whitespace | newline | lineComment | blockComment
  | layoutStart | layoutSep | layoutEnd
  | int | number | string | rawString | char
  | lower | upper | qualifiedLower | qualifiedUpper | operator | hole | underscore
  | kwModule | kwWhere | kwImport | kwData | kwNewtype | kwType | kwClass | kwInstance
  | kwDerive | kwForeign | kwInfix | kwInfixl | kwInfixr | kwLet | kwIn | kwDo | kwAdo
  | kwCase | kwOf | kwIf | kwThen | kwElse | kwForall | kwTrue | kwFalse
  | leftParen | rightParen | leftBrace | rightBrace | leftSquare | rightSquare | comma
  | backtick
  | equals | doubleColon | arrow | leftArrow | fatArrow | pipe | backslash | at | dot
  | dotDot
  | unknown | eof
  deriving DecidableEq, Inhabited

namespace TokenKind

/-- Every kind, in order. -/
def all : List TokenKind :=
  [.whitespace, .newline, .lineComment, .blockComment, .layoutStart, .layoutSep,
   .layoutEnd, .int, .number, .string, .rawString, .char, .lower, .upper,
   .qualifiedLower, .qualifiedUpper, .operator, .hole, .underscore, .kwModule, .kwWhere,
   .kwImport, .kwData, .kwNewtype, .kwType, .kwClass, .kwInstance, .kwDerive, .kwForeign,
   .kwInfix, .kwInfixl, .kwInfixr, .kwLet, .kwIn, .kwDo, .kwAdo, .kwCase, .kwOf, .kwIf,
   .kwThen, .kwElse, .kwForall, .kwTrue, .kwFalse, .leftParen, .rightParen, .leftBrace,
   .rightBrace, .leftSquare, .rightSquare, .comma, .backtick, .equals, .doubleColon,
   .arrow, .leftArrow, .fatArrow, .pipe, .backslash, .at, .dot, .dotDot, .unknown, .eof]

/-- The place of a kind in the order, from zero. -/
def index (kind : TokenKind) : Nat := kind.ctorIdx

/-- The kind at a place. -/
def ofIndex? (place : Nat) : Option TokenKind := all[place]?

/-- The name that dumps and tables show. -/
def name : TokenKind → String
  | .whitespace => "Whitespace"
  | .newline => "Newline"
  | .lineComment => "LineComment"
  | .blockComment => "BlockComment"
  | .layoutStart => "LayoutStart"
  | .layoutSep => "LayoutSep"
  | .layoutEnd => "LayoutEnd"
  | .int => "Int"
  | .number => "Number"
  | .string => "String"
  | .rawString => "RawString"
  | .char => "Char"
  | .lower => "Lower"
  | .upper => "Upper"
  | .qualifiedLower => "QualifiedLower"
  | .qualifiedUpper => "QualifiedUpper"
  | .operator => "Operator"
  | .hole => "Hole"
  | .underscore => "Underscore"
  | .kwModule => "KwModule"
  | .kwWhere => "KwWhere"
  | .kwImport => "KwImport"
  | .kwData => "KwData"
  | .kwNewtype => "KwNewtype"
  | .kwType => "KwType"
  | .kwClass => "KwClass"
  | .kwInstance => "KwInstance"
  | .kwDerive => "KwDerive"
  | .kwForeign => "KwForeign"
  | .kwInfix => "KwInfix"
  | .kwInfixl => "KwInfixl"
  | .kwInfixr => "KwInfixr"
  | .kwLet => "KwLet"
  | .kwIn => "KwIn"
  | .kwDo => "KwDo"
  | .kwAdo => "KwAdo"
  | .kwCase => "KwCase"
  | .kwOf => "KwOf"
  | .kwIf => "KwIf"
  | .kwThen => "KwThen"
  | .kwElse => "KwElse"
  | .kwForall => "KwForall"
  | .kwTrue => "KwTrue"
  | .kwFalse => "KwFalse"
  | .leftParen => "LeftParen"
  | .rightParen => "RightParen"
  | .leftBrace => "LeftBrace"
  | .rightBrace => "RightBrace"
  | .leftSquare => "LeftSquare"
  | .rightSquare => "RightSquare"
  | .comma => "Comma"
  | .backtick => "Backtick"
  | .equals => "Equals"
  | .doubleColon => "DoubleColon"
  | .arrow => "Arrow"
  | .leftArrow => "LeftArrow"
  | .fatArrow => "FatArrow"
  | .pipe => "Pipe"
  | .backslash => "Backslash"
  | .at => "At"
  | .dot => "Dot"
  | .dotDot => "DotDot"
  | .unknown => "Unknown"
  | .eof => "Eof"

/-- The kind of a name. -/
def ofName? (text : String) : Option TokenKind :=
  all.find? fun kind => kind.name == text

/-- The description in messages that list what was expected. -/
def describe : TokenKind → String
  | .whitespace => "whitespace"
  | .newline => "newline"
  | .lineComment => "line comment"
  | .blockComment => "block comment"
  | .layoutStart => "indented block"
  | .layoutSep => "new line"
  | .layoutEnd => "end of block"
  | .int => "integer"
  | .number => "number"
  | .string => "string"
  | .rawString => "string"
  | .char => "character"
  | .lower => "identifier"
  | .upper => "proper name"
  | .qualifiedLower => "qualified identifier"
  | .qualifiedUpper => "qualified proper name"
  | .operator => "operator"
  | .hole => "hole"
  | .underscore => "_"
  | .kwModule => "module"
  | .kwWhere => "where"
  | .kwImport => "import"
  | .kwData => "data"
  | .kwNewtype => "newtype"
  | .kwType => "type"
  | .kwClass => "class"
  | .kwInstance => "instance"
  | .kwDerive => "derive"
  | .kwForeign => "foreign"
  | .kwInfix => "infix"
  | .kwInfixl => "infixl"
  | .kwInfixr => "infixr"
  | .kwLet => "let"
  | .kwIn => "in"
  | .kwDo => "do"
  | .kwAdo => "ado"
  | .kwCase => "case"
  | .kwOf => "of"
  | .kwIf => "if"
  | .kwThen => "then"
  | .kwElse => "else"
  | .kwForall => "forall"
  | .kwTrue => "true"
  | .kwFalse => "false"
  | .leftParen => "("
  | .rightParen => ")"
  | .leftBrace => "\x7b"
  | .rightBrace => "\x7d"
  | .leftSquare => "["
  | .rightSquare => "]"
  | .comma => ","
  | .backtick => "`"
  | .equals => "="
  | .doubleColon => "::"
  | .arrow => "->"
  | .leftArrow => "<-"
  | .fatArrow => "=>"
  | .pipe => "|"
  | .backslash => "\\"
  | .at => "@"
  | .dot => "."
  | .dotDot => ".."
  | .unknown => "invalid token"
  | .eof => "end of file"

/-- Blanks, line breaks and comments. -/
def isTrivia : TokenKind → Bool
  | .whitespace | .newline | .lineComment | .blockComment => true
  | _ => false

/-- The zero-width tokens that mark blocks. -/
def isLayout : TokenKind → Bool
  | .layoutStart | .layoutSep | .layoutEnd => true
  | _ => false

/-- Whether the kind is a reserved word's. -/
def isKeyword (kind : TokenKind) : Bool :=
  kwModule.index ≤ kind.index && kind.index ≤ kwFalse.index

/-- The kind of a reserved word. -/
def keyword? : String → Option TokenKind
  | "module" => some .kwModule
  | "where" => some .kwWhere
  | "import" => some .kwImport
  | "data" => some .kwData
  | "newtype" => some .kwNewtype
  | "type" => some .kwType
  | "class" => some .kwClass
  | "instance" => some .kwInstance
  | "derive" => some .kwDerive
  | "foreign" => some .kwForeign
  | "infix" => some .kwInfix
  | "infixl" => some .kwInfixl
  | "infixr" => some .kwInfixr
  | "let" => some .kwLet
  | "in" => some .kwIn
  | "do" => some .kwDo
  | "ado" => some .kwAdo
  | "case" => some .kwCase
  | "of" => some .kwOf
  | "if" => some .kwIf
  | "then" => some .kwThen
  | "else" => some .kwElse
  | "forall" => some .kwForall
  | "true" => some .kwTrue
  | "false" => some .kwFalse
  | _ => none

/-- The kind of a reserved symbol, in its ASCII or its typographic form. -/
def reservedSymbol? : String → Option TokenKind
  | "=" => some .equals
  | "::" | "∷" => some .doubleColon
  | "->" | "→" => some .arrow
  | "<-" | "←" => some .leftArrow
  | "=>" | "⇒" => some .fatArrow
  | "|" => some .pipe
  | "\\" => some .backslash
  | "@" => some .at
  | "." => some .dot
  | ".." => some .dotDot
  | "∀" => some .kwForall
  | _ => none

/-- A kind is found again by its number. -/
theorem ofIndex?_index (kind : TokenKind) : ofIndex? kind.index = some kind := by
  cases kind <;> rfl

end TokenKind

end Offside
