import ImportContext.Source.Position

/-!
# Statements

What is kept of a source text: import statements with the positions of their parts, the names
bound by assignments and definitions with the lines they take, and the nesting of blocks.
-/

namespace ImportContext.Source

/-- Names joined by dots, as read from `pos` on. -/
structure DottedName where
  parts : List String
  pos : Position
deriving DecidableEq, Repr

/-- An imported name and the name it is bound to. -/
structure ImportItem where
  path : DottedName
  asName : Option (String × Position)
deriving DecidableEq, Repr

/-- Where a `from` statement imports from. -/
inductive ImportSource where
  | future
  | absolute (path : DottedName)
  /-- Leading dots, then possibly names. -/
  | relative (dots : Nat) (parts : List String) (pos : Position)
deriving DecidableEq, Repr

/-- What an import statement says. -/
inductive ImportForm where
  | modules (items : List ImportItem)
  | members (source : ImportSource) (items : List ImportItem)
  | wildcard (source : ImportSource)
deriving DecidableEq, Repr

/-- An import statement. `bareComma` is the position of a comma that ends the list without
surrounding parentheses. -/
structure ImportStatement where
  pos : Position
  form : ImportForm
  bareComma : Option Position
deriving DecidableEq, Repr

/-- First and last line, both included. -/
structure LineSpan where
  first : Nat
  last : Nat
deriving DecidableEq, Repr

inductive DefinitionKind where
  | functionDef
  | classDef
deriving DecidableEq, Repr

inductive Statement where
  | importing (s : ImportStatement)
  /-- An assignment that binds plain names. -/
  | assigning (names : List String) (lines : LineSpan)
  /-- A function or class, decorators included in its lines. -/
  | defining (kind : DefinitionKind) (name : String) (lines : LineSpan) (body : List Statement)
  /-- Any other statement with blocks; the blocks' statements stand one after the other. -/
  | compound (body : List Statement)
  | other

end ImportContext.Source
