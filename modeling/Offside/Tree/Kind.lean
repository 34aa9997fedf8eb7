/-!
The kinds of interior node in a tree.

The order groups the kinds: structure of a module, declarations,
expressions, binders, types. The expression kinds and the type kinds are
intervals of the order.
-/

namespace Offside

/-- What an interior node is. The root holds the entry and whatever input is
left over; an error node holds input that was skipped. -/
inductive NodeKind
  | root | module | error
  | moduleHeader | moduleName | exportList | export | importDecl | importList
  | importItem | importAlias | qualifiedName
  | valueDecl | signature | dataDecl | dataCtor | newtypeDecl | typeSynonymDecl
  | classDecl | classMembers | instanceDecl | instanceMembers | deriveDecl
  | foreignImportDecl | fixityDecl | guardedExpr | guard | whereBlock
  | exprVar | exprConstructor | exprOperatorName | exprLiteral | exprHole | exprSection
  | exprParens | exprArray | exprRecord | recordField | exprRecordAccess
  | exprRecordUpdate | exprApp | exprTypeApp | exprNegate | exprOperatorChain
  | exprBacktick | exprTyped | exprLambda | exprIf | exprCase | caseBranch | exprLet
  | letBindings | exprDo | exprAdo | doBind | doLet | doDiscard
  | binderVar | binderWildcard | binderLiteral | binderConstructor | binderNamed
  | binderRecord | binderArray | binderParens | binderTyped
  | typeVar | typeConstructor | typeWildcard | typeHole | typeParens | typeApp
  | typeArrow | typeConstrained | typeForall | typeVarBinding | typeRecord | typeRow
  | rowField | typeKinded | typeStringLiteral
  deriving DecidableEq, Inhabited

namespace NodeKind

/-- Every kind, in order. -/
def all : List NodeKind :=
  [.root, .module, .error, .moduleHeader, .moduleName, .exportList, .export, .importDecl,
   .importList, .importItem, .importAlias, .qualifiedName, .valueDecl, .signature,
   .dataDecl, .dataCtor, .newtypeDecl, .typeSynonymDecl, .classDecl, .classMembers,
   .instanceDecl, .instanceMembers, .deriveDecl, .foreignImportDecl, .fixityDecl,
   .guardedExpr, .guard, .whereBlock, .exprVar, .exprConstructor, .exprOperatorName,
   .exprLiteral, .exprHole, .exprSection, .exprParens, .exprArray, .exprRecord,
   .recordField, .exprRecordAccess, .exprRecordUpdate, .exprApp, .exprTypeApp,
   .exprNegate, .exprOperatorChain, .exprBacktick, .exprTyped, .exprLambda, .exprIf,
   .exprCase, .caseBranch, .exprLet, .letBindings, .exprDo, .exprAdo, .doBind, .doLet,
   .doDiscard, .binderVar, .binderWildcard, .binderLiteral, .binderConstructor,
   .binderNamed, .binderRecord, .binderArray, .binderParens, .binderTyped, .typeVar,
   .typeConstructor, .typeWildcard, .typeHole, .typeParens, .typeApp, .typeArrow,
   .typeConstrained, .typeForall, .typeVarBinding, .typeRecord, .typeRow, .rowField,
   .typeKinded, .typeStringLiteral]

/-- The place of a kind in the order, from zero. -/
def index (kind : NodeKind) : Nat := kind.ctorIdx

/-- The name that dumps show. -/
def name : NodeKind → String
  | .root => "Root"
  | .module => "Module"
  | .error => "Error"
  | .moduleHeader => "ModuleHeader"
  | .moduleName => "ModuleName"
  | .exportList => "ExportList"
  | .export => "Export"
  | .importDecl => "ImportDecl"
  | .importList => "ImportList"
  | .importItem => "ImportItem"
  | .importAlias => "ImportAlias"
  | .qualifiedName => "QualifiedName"
  | .valueDecl => "ValueDecl"
  | .signature => "Signature"
  | .dataDecl => "DataDecl"
  | .dataCtor => "DataCtor"
  | .newtypeDecl => "NewtypeDecl"
  | .typeSynonymDecl => "TypeSynonymDecl"
  | .classDecl => "ClassDecl"
  | .classMembers => "ClassMembers"
  | .instanceDecl => "InstanceDecl"
  | .instanceMembers => "InstanceMembers"
  | .deriveDecl => "DeriveDecl"
  | .foreignImportDecl => "ForeignImportDecl"
  | .fixityDecl => "FixityDecl"
  | .guardedExpr => "GuardedExpr"
  | .guard => "Guard"
  | .whereBlock => "WhereBlock"
  | .exprVar => "ExprVar"
  | .exprConstructor => "ExprConstructor"
  | .exprOperatorName => "ExprOperatorName"
  | .exprLiteral => "ExprLiteral"
  | .exprHole => "ExprHole"
  | .exprSection => "ExprSection"
  | .exprParens => "ExprParens"
  | .exprArray => "ExprArray"
  | .exprRecord => "ExprRecord"
  | .recordField => "RecordField"
  | .exprRecordAccess => "ExprRecordAccess"
  | .exprRecordUpdate => "ExprRecordUpdate"
  | .exprApp => "ExprApp"
  | .exprTypeApp => "ExprTypeApp"
  | .exprNegate => "ExprNegate"
  | .exprOperatorChain => "ExprOperatorChain"
  | .exprBacktick => "ExprBacktick"
  | .exprTyped => "ExprTyped"
  | .exprLambda => "ExprLambda"
  | .exprIf => "ExprIf"
  | .exprCase => "ExprCase"
  | .caseBranch => "CaseBranch"
  | .exprLet => "ExprLet"
  | .letBindings => "LetBindings"
  | .exprDo => "ExprDo"
  | .exprAdo => "ExprAdo"
  | .doBind => "DoBind"
  | .doLet => "DoLet"
  | .doDiscard => "DoDiscard"
  | .binderVar => "BinderVar"
  | .binderWildcard => "BinderWildcard"
  | .binderLiteral => "BinderLiteral"
  | .binderConstructor => "BinderConstructor"
  | .binderNamed => "BinderNamed"
  | .binderRecord => "BinderRecord"
  | .binderArray => "BinderArray"
  | .binderParens => "BinderParens"
  | .binderTyped => "BinderTyped"
  | .typeVar => "TypeVar"
  | .typeConstructor => "TypeConstructor"
  | .typeWildcard => "TypeWildcard"
  | .typeHole => "TypeHole"
  | .typeParens => "TypeParens"
  | .typeApp => "TypeApp"
  | .typeArrow => "TypeArrow"
  | .typeConstrained => "TypeConstrained"
  | .typeForall => "TypeForall"
  | .typeVarBinding => "TypeVarBinding"
  | .typeRecord => "TypeRecord"
  | .typeRow => "TypeRow"
  | .rowField => "RowField"
  | .typeKinded => "TypeKinded"
  | .typeStringLiteral => "TypeStringLiteral"

/-- The kind of a name. -/
def ofName? (text : String) : Option NodeKind :=
  all.find? fun kind => kind.name == text

/-- Whether expressions produce the kind. -/
def isExpr (kind : NodeKind) : Bool :=
  exprVar.index ≤ kind.index && kind.index ≤ doDiscard.index

/-- Whether types produce the kind. -/
def isType (kind : NodeKind) : Bool :=
  typeVar.index ≤ kind.index

end NodeKind

end Offside
