import ImportContext.Path.Basic

/-!
# Symbol locations

Where a symbol is defined, as far as it is known. Line numbers and text are known together: they
are an excerpt of the defining file. Line numbers are words of 64 bits.
-/

namespace ImportContext

/-- Consecutive lines of a file, the first of them numbered `startLine`. -/
structure Excerpt where
  startLine : UInt64
  lines : List String
deriving DecidableEq, Repr

namespace Excerpt

/-- The number of the last line. -/
def endLine (e : Excerpt) : UInt64 :=
  e.startLine + UInt64.ofNat (e.lines.length - 1)

def text (e : Excerpt) : String :=
  String.join e.lines

end Excerpt

/-- What is known of a symbol's definition. -/
structure SymbolLocation where
  file : Option Path := none
  excerpt : Option Excerpt := none
  representation : Option String := none
  qualifiedName : Option String := none
deriving DecidableEq, Repr, Inhabited

namespace SymbolLocation

/-- Nothing is known. -/
def absent : SymbolLocation := {}

/-- Only the file is known. -/
def fileOnly (file : Path) : SymbolLocation :=
  { file := some file }

/-- The lines from `startLine` on are known; a start before the first line means the first. -/
def withSource (file : Path) (startLine : UInt64) (lines : List String) : SymbolLocation :=
  { file := some file, excerpt := some ⟨if startLine = 0 then 1 else startLine, lines⟩ }

def startLine (l : SymbolLocation) : Option UInt64 :=
  l.excerpt.map (·.startLine)

def endLine (l : SymbolLocation) : Option UInt64 :=
  l.excerpt.map Excerpt.endLine

def sourceText (l : SymbolLocation) : Option String :=
  l.excerpt.map Excerpt.text

def hasSource (l : SymbolLocation) : Bool :=
  l.excerpt.isSome

def isAbsent (l : SymbolLocation) : Bool :=
  l.file.isNone && l.excerpt.isNone

end SymbolLocation

end ImportContext
