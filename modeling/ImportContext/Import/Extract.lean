import ImportContext.Import.Declaration
import ImportContext.Source.Reader

/-!
# Extracting import declarations

The grammar lets any word stand for a name, a dotted path stand for a member, and a list end in a
comma. `ImportStatement.declarations` refuses these and gives one declaration per name.

Main definitions: `extractImports` (all declarations of a text, in order), `moduleLevelImports`
(those outside functions and classes).
-/

namespace ImportContext

open Source

/-- Why a source text is refused. -/
inductive SyntaxError where
  /-- The text does not follow the grammar. Where a parser that recovers from errors puts the first
  of them, and the excerpt or the missing token that it names there, is not kept. -/
  | grammar
  | bareComma (pos : Position)
  | keywordName (keyword : String) (pos : Position)
  | dottedMember (pos : Position)
deriving DecidableEq, Repr

/-- An error text with its position. -/
def positioned (pos : Position) (message : String) : String :=
  "invalid syntax at line " ++ toString pos.line ++ ", column " ++ toString pos.column ++ ": " ++
    message

/-- The wording of a syntax error. The placeholder `<detail>` stands for the line and column at
which the parser reports a text that does not follow the grammar, and for what it says of that
place: that a token is missing, or the first 40 characters of what it could not read. -/
def SyntaxError.message : SyntaxError → String
  | grammar => "invalid syntax <detail>"
  | bareComma pos =>
    positioned pos "trailing comma not allowed without surrounding parentheses"
  | keywordName keyword pos =>
    positioned pos ("expected a name, found keyword '" ++ keyword ++ "'")
  | dottedMember pos => positioned pos "expected a name, found a dotted path"

/-- Words that cannot name a module or a member. -/
def keywords : List String :=
  ["False", "None", "True", "and", "as", "assert", "async", "await", "break", "class", "continue",
    "def", "del", "elif", "else", "except", "finally", "for", "from", "global", "if", "import",
    "in", "is", "lambda", "nonlocal", "not", "or", "pass", "raise", "return", "try", "while",
    "with", "yield"]

def isKeyword (w : String) : Bool :=
  keywords.contains w

/-- Refuses a name with a keyword among its parts. -/
def checkNames (parts : List String) (pos : Position) : Except SyntaxError Unit :=
  match parts.find? isKeyword with
  | some keyword => .error (.keywordName keyword pos)
  | none => .ok ()

/-- The parts of a dotted name with dots between them. -/
def dotted (parts : List String) : String :=
  String.intercalate "." parts

/-- The alias of an item, refused when it is a keyword. -/
def checkAlias : Option (String × Position) → Except SyntaxError (Option String)
  | none => .ok none
  | some (w, pos) => do
    checkNames [w] pos
    .ok (some w)

/-- The declaration of a module. -/
def moduleDeclaration (pos : Position) (item : ImportItem) :
    Except SyntaxError ImportDeclaration := do
  let asName ← checkAlias item.asName
  checkNames item.path.parts item.path.pos
  .ok (.plain { modulePath := dotted item.path.parts, asName, pos })

/-- The module path and depth of a `from` statement. -/
def checkSource : ImportSource → Except SyntaxError (String × Nat)
  | .future => .ok ("__future__", 0)
  | .absolute path => do
    checkNames path.parts path.pos
    .ok (dotted path.parts, 0)
  | .relative dots parts pos => do
    checkNames parts pos
    .ok (dotted parts, dots)

/-- The declaration of a member. -/
def memberDeclaration (pos : Position) (modulePath : String) (depth : Nat) (item : ImportItem) :
    Except SyntaxError ImportDeclaration := do
  let asName ← checkAlias item.asName
  checkNames item.path.parts item.path.pos
  match item.path.parts with
  | [symbol] => .ok (.member { modulePath, symbol, asName, depth, pos })
  | _ => .error (.dottedMember item.path.pos)

/-- The declarations of a statement, one per name. -/
def Source.ImportStatement.declarations (s : ImportStatement) :
    Except SyntaxError (List ImportDeclaration) :=
  match s.bareComma with
  | some pos => .error (.bareComma pos)
  | none =>
    match s.form with
    | .modules items => items.mapM (moduleDeclaration s.pos)
    | .members source items => do
      let (modulePath, depth) ← checkSource source
      items.mapM (memberDeclaration s.pos modulePath depth)
    | .wildcard source => do
      let (modulePath, depth) ← checkSource source
      .ok [.member { modulePath, symbol := "*", asName := none, depth, pos := s.pos }]

mutual

/-- The import statements of a statement, in order; with `nested`, also those in functions and
classes. -/
def Source.Statement.imports (nested : Bool) : Statement → List ImportStatement
  | .importing s => [s]
  | .assigning _ _ => []
  | .defining _ _ _ body => if nested then importsIn nested body else []
  | .compound body => importsIn nested body
  | .other => []

/-- The import statements of a list of statements, in order. -/
def importsIn (nested : Bool) : List Statement → List ImportStatement
  | [] => []
  | s :: rest => s.imports nested ++ importsIn nested rest

end

/-- The declarations of import statements, in order. -/
def declarationsOf (statements : List ImportStatement) :
    Except SyntaxError (List ImportDeclaration) := do
  let groups ← statements.mapM ImportStatement.declarations
  .ok groups.flatten

/-- The statements of a source text. -/
def parseSource (source : String) : Except SyntaxError (List Statement) :=
  match readSource? source with
  | some body => .ok body
  | none => .error .grammar

/-- Every import declaration of a source text, in order. -/
def extractImports (source : String) : Except SyntaxError (List ImportDeclaration) := do
  declarationsOf (importsIn true (← parseSource source))

/-- The import declarations outside functions and classes, in order. -/
def moduleLevelImports (body : List Statement) : Except SyntaxError (List ImportDeclaration) :=
  declarationsOf (importsIn false body)

end ImportContext
