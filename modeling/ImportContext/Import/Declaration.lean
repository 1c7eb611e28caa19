import ImportContext.Source.Position
import ImportContext.Text.Blank

/-!
# Import declarations

A declaration is one name bound by an import statement. A statement that binds several names
gives one declaration per name, all at the position of the statement.

Main definitions: `ImportDeclaration`, `ImportDeclaration.text`.
-/

namespace ImportContext

open Source (Position)

/-- `import module.path [as alias]` -/
structure PlainImport where
  modulePath : String
  asName : Option String
  pos : Position
deriving DecidableEq, Repr

/-- `from module.path import symbol [as alias]`, with `depth` dots before the path. -/
structure FromImport where
  modulePath : String
  symbol : String
  asName : Option String
  depth : Nat
  pos : Position
deriving DecidableEq, Repr

inductive ImportDeclaration where
  | plain (d : PlainImport)
  | member (d : FromImport)
deriving DecidableEq, Repr

/-- The part of a dotted path before its first dot. -/
def rootSegment (path : String) : String :=
  String.ofList (path.toList.takeWhile (· != '.'))

namespace FromImport

def isRelative (d : FromImport) : Bool :=
  0 < d.depth || d.modulePath == ""

def isWildcard (d : FromImport) : Bool :=
  d.symbol == "*"

/-- The name bound in the importing module. -/
def boundName (d : FromImport) : String :=
  d.asName.getD d.symbol

end FromImport

/-- The name bound in the importing module: the alias, or the first segment of the path. -/
def PlainImport.boundName (d : PlainImport) : String :=
  d.asName.getD (rootSegment d.modulePath)

namespace ImportDeclaration

def pos : ImportDeclaration → Position
  | plain d => d.pos
  | member d => d.pos

def modulePath : ImportDeclaration → String
  | plain d => d.modulePath
  | member d => d.modulePath

def isRelative : ImportDeclaration → Bool
  | plain _ => false
  | member d => d.isRelative

def isWildcard : ImportDeclaration → Bool
  | plain _ => false
  | member d => d.isWildcard

/-- The first segment of the imported path, empty for `from . import x`. -/
def rootModule (d : ImportDeclaration) : String :=
  rootSegment d.modulePath

def boundName : ImportDeclaration → String
  | plain d => d.boundName
  | member d => d.boundName

/-- The part ` as alias` of a statement. -/
def aliasText : Option String → String
  | some a => " as " ++ a
  | none => ""

/-- The declaration written as a statement of its own. -/
def text : ImportDeclaration → String
  | plain d => "import " ++ d.modulePath ++ aliasText d.asName
  | member d =>
    "from " ++ String.ofList (List.replicate d.depth '.') ++ d.modulePath ++ " import " ++ d.symbol ++
      (if d.isWildcard then "" else aliasText d.asName)

end ImportDeclaration

end ImportContext
