import Offside.Language.Expressions

/-!
Declarations, imports and modules.
-/

namespace Offside.Language

open Grammar

-- ========================================================== values

/-- A signature starts here: a name and a double colon. -/
def startsSignature (view : View) : Bool := view.nthKind 1 == .doubleColon

/-- A name with its type. -/
def typedName : Grammar := .node .signature (.token .lower + .token .doubleColon + type)

/-- A signature, recognised by its double colon. -/
def signature : Grammar := .lookahead startsSignature typedName

/-- The bindings after the body of a value. -/
def whereBindings : Grammar :=
  .node .whereBlock (.token .kwWhere + block localDecl "where binding")

/-- A value: its name, its binders, its body, and optional bindings. -/
def value : Grammar :=
  .node .valueDecl
    (.token .lower + .many binderAtom 0 + guarded .equals + .optional whereBindings)

/-- The rule for local declarations. -/
def localRule : Grammar := signature <|> value

-- =========================================================== types

/-- The name of a type that is declared, and its variables. -/
def typeHead : Grammar := .token .upper + .many typeVarBinding 0

/-- A data type with its constructors. -/
def dataDecl : Grammar :=
  let constructor := .node .dataCtor (.token .upper + .many typeAtom 0)
  let constructors := .token .equals + sepBy1 constructor (.token .pipe)
  .node .dataDecl (.token .kwData + typeHead + .optional constructors)

/-- A data type with one constructor of one argument. -/
def newtypeDecl : Grammar :=
  .node .newtypeDecl
    (.token .kwNewtype + typeHead + .token .equals + .token .upper + typeAtom)

/-- A name for a type. -/
def typeSynonym : Grammar :=
  .node .typeSynonymDecl (.token .kwType + typeHead + .token .equals + type)

-- =========================================== classes and instances

/-- The superclasses of a class; taken back unless their arrow is there. -/
def superclasses : Grammar := .attempt (constraints + .literal "<=")

/-- Which variables of a class determine which others. -/
def functionalDependency : Grammar :=
  .many (.token .lower) 0 + .token .arrow + .many (.token .lower) 0

/-- The members of a class. -/
def classMembers : Grammar :=
  .node .classMembers (.token .kwWhere + block typedName "class member")

/-- A class. -/
def classDecl : Grammar :=
  .node .classDecl
    (.token .kwClass + .optional superclasses + typeHead
      + .optional (.token .pipe + commaSep1 functionalDependency)
      + .optional classMembers)

/-- The head of an instance: an optional name, optional constraints, the class
and its arguments. -/
def instanceHead : Grammar :=
  .optional (.token .lower + .token .doubleColon)
    + .optional (.attempt (constraints + .token .fatArrow))
    + properName + .many typeAtom 0

/-- The members of an instance. -/
def instanceMembers : Grammar :=
  .node .instanceMembers (.token .kwWhere + block localDecl "instance member")

/-- An instance. -/
def instanceDecl : Grammar :=
  .node .instanceDecl (.token .kwInstance + instanceHead + .optional instanceMembers)

/-- An instance that is derived. -/
def deriveDecl : Grammar :=
  .node .deriveDecl
    (.token .kwDerive + .optional (.token .kwNewtype) + .token .kwInstance + instanceHead)

-- ============================================ foreign, fixity, all

/-- A type or a value that is defined elsewhere. -/
def foreignImport : Grammar :=
  let foreignData := .token .kwData + .token .upper + .token .doubleColon + type
  let foreignValue := .token .lower + .token .doubleColon + type
  .node .foreignImportDecl
    (.token .kwForeign + .token .kwImport + (foreignData <|> foreignValue))

/-- The precedence and the name of an operator. -/
def fixityDecl : Grammar :=
  let keyword := oneOf [.token .kwInfixl, .token .kwInfixr, .token .kwInfix]
  .node .fixityDecl
    (keyword + .token .int + .optional (.token .kwType) + (variableName <|> properName)
      + .literal "as" + .token .operator)

/-- A declaration of a module. -/
def declaration : Grammar :=
  .labeled "declaration"
    (oneOf
      [dataDecl, newtypeDecl, typeSynonym, classDecl,
       sepBy1 instanceDecl (.token .kwElse),
       deriveDecl, foreignImport, fixityDecl, signature, value])

-- ========================================================= modules

/-- What can be named in import and export lists alike. -/
def importables : List Grammar :=
  [.token .lower, operatorName, .token .upper + .optional members,
   .token .kwType + operatorName, .token .kwClass + .token .upper]

/-- An import. -/
def importDecl : Grammar :=
  let list :=
    .node .importList
      (.optional (.literal "hiding")
        + parens (commaSep (.node .importItem (oneOf importables))))
  let asName := .node .importAlias (.literal "as" + moduleName)
  .node .importDecl (.token .kwImport + moduleName + .optional list + .optional asName)

/-- The exports of a module. -/
def exports : Grammar :=
  let reexport := .token .kwModule + moduleName
  .node .exportList (parens (commaSep (.node .export (oneOf (importables ++ [reexport])))))

/-- The head of a module. -/
def moduleHeader : Grammar :=
  .node .moduleHeader
    (.token .kwModule + moduleName + .optional exports + .token .kwWhere)

/-- A module: its head, and a block of imports and declarations. An item that
fails is skipped up to the next, so that it never hides the rest. -/
def moduleBody : Grammar := items (importDecl <|> declaration) "declaration"

/-- A module. -/
def wholeModule : Grammar :=
  .node .module
    (moduleHeader + .token .layoutStart + .optional moduleBody + .token .layoutEnd)

end Offside.Language
