/-!
# Positions in a source text

Lines count from 1 and columns from 0, in bytes. A cursor is the text still to read with the
position of its first character.
-/

namespace ImportContext.Source

/-- A place in a source text. -/
structure Position where
  line : Nat
  column : Nat
deriving DecidableEq, Repr, Inhabited

namespace Position

/-- Where a text begins. -/
def start : Position := ⟨1, 0⟩

/-- The position behind one character. -/
def next (p : Position) (c : Char) : Position :=
  if c = '\n' then ⟨p.line + 1, 0⟩ else ⟨p.line, p.column + c.utf8Size⟩

/-- The position behind a text. -/
def after (p : Position) (cs : List Char) : Position :=
  cs.foldl next p

/-- The last line touched by something that ends here. -/
def lastLine (p : Position) : Nat :=
  if p.column = 0 then p.line - 1 else p.line

end Position

/-- The text still to read and the position of its first character. -/
structure Cursor where
  rest : List Char
  pos : Position
deriving Inhabited

namespace Cursor

/-- The cursor at the beginning of a text. -/
def ofText (cs : List Char) : Cursor := ⟨cs, .start⟩

/-- The cursor `n` characters further. -/
def advance (k : Cursor) (n : Nat) : Cursor :=
  ⟨k.rest.drop n, k.pos.after (k.rest.take n)⟩

end Cursor

end ImportContext.Source
