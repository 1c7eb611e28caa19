import ImportContext.Source.Position

/-!
# Line ends and indentation

Whether a line end means anything depends on what may follow. Between two tokens the blanks,
comments and continued lines are measured (`scanGap`), and `Expected.layout` says whether the end
of a statement, a deeper block or the end of a block stands there. Where none of them is awaited
a line end is a blank like any other, with one exception: a line indented less than the open
block ends that block even where no block may end, unless a bracket can close there. These are the
rules of the external scanner of the tree-sitter grammar for Python (version 0.21).

Main definitions: `scanGap`, `Expected.layout`, `lead`.
-/

namespace ImportContext.Source

/-- What was met between two tokens. -/
structure Gap where
  /-- A line end was met. -/
  crossed : Bool := false
  /-- Indentation of the line reached, a tab counting eight. -/
  width : Nat := 0
  /-- Indentation of the first comment that has its line to itself. -/
  comment : Option Nat := none
  /-- The text at which the gap stops. -/
  next : List Char := []

/-- Measures the gap before a token. `watch` says whether comment lines are read over;
`inComment` is true inside one. The result is `none` where a comment shares a line with code or
a backslash does not end its line. -/
def scanGap (watch : Bool) : Gap → Bool → List Char → Option Gap
  | g, _, [] => some { g with crossed := true, width := 0, next := [] }
  | g, true, c :: rest =>
    if c = '\n' then scanGap watch { g with width := 0 } false rest
    else scanGap watch g true rest
  | g, false, '\\' :: '\n' :: rest => scanGap watch g false rest
  | g, false, ['\\'] => scanGap watch g false []
  | g, false, c :: rest =>
    if c = '\n' then scanGap watch { g with crossed := true, width := 0 } false rest
    else if c = ' ' then scanGap watch { g with width := g.width + 1 } false rest
    else if c = '\t' then scanGap watch { g with width := g.width + 8 } false rest
    else if c = '\r' || c = '\x0c' then scanGap watch { g with width := 0 } false rest
    else if c = '\\' then none
    else if c = '#' && watch then
      if g.crossed then
        scanGap watch { g with comment := some (g.comment.getD g.width) } true rest
      else none
    else some { g with next := c :: rest }

/-- What may stand at a place besides ordinary tokens. -/
structure Expected where
  /-- The end of a statement. -/
  newline : Bool := false
  /-- A deeper block. -/
  indent : Bool := false
  /-- The end of the open block. -/
  dedent : Bool := false
  /-- A closing bracket. -/
  closer : Bool := false
  /-- A string literal. -/
  string : Bool := false
  /-- A handler clause of a `try` statement. -/
  handler : Bool := false

/-- A token of no width that comes from line ends and indentation. -/
inductive Layout where
  | newline
  | indent (width : Nat)
  | dedent
deriving DecidableEq, Repr

/-- Whether a text begins with a quotation mark. -/
def startsQuoted : List Char → Bool
  | c :: _ => c == '"' || c == '\'' || c == '\x60'
  | [] => false

/-- The layout token before `cs`, in a block of indentation `current`. Inside a formatted string
(`formatted`) no block ends. -/
def Expected.layout (e : Expected) (current : Nat) (formatted : Bool) (cs : List Char) :
    Option Layout :=
  match scanGap (e.indent || e.dedent || e.newline || e.handler) {} false cs with
  | none => none
  | some g =>
    if g.crossed then
      if e.indent && current < g.width then some (.indent g.width)
      else if (e.dedent || (!e.newline && !(e.string && startsQuoted g.next) && !e.closer)) &&
          g.width < current && !formatted && g.comment.all (· < current) then some .dedent
      else if e.newline then some .newline
      else none
    else none

/-- How many characters precede the next token, and the layout token that stands there instead
of an ordinary one. -/
structure Lead where
  skip : Nat
  layout : Option Layout

/-- Skips blanks, comments and continued lines up to the next token. The question for a layout
token is asked again behind each comment and each continued line. -/
def leadFrom (space : Char → Bool) (ask : List Char → Option Layout) :
    Bool → List Char → Nat → Lead
  | false, [], n => ⟨n, none⟩
  | true, [], n => ⟨n, ask []⟩
  | true, c :: rest, n =>
    if c = '\n' then
      match ask (c :: rest) with
      | none => leadFrom space ask false rest (n + 1)
      | some l => ⟨n, some l⟩
    else leadFrom space ask true rest (n + 1)
  | false, '\\' :: '\n' :: rest, n =>
    match ask rest with
    | none => leadFrom space ask false rest (n + 2)
    | some l => ⟨n + 2, some l⟩
  | false, ['\\'], n => ⟨n + 1, ask []⟩
  | false, c :: rest, n =>
    if space c then leadFrom space ask false rest (n + 1)
    else if c = '#' then leadFrom space ask true rest (n + 1)
    else ⟨n, none⟩

end ImportContext.Source
