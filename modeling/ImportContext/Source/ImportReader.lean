import ImportContext.Source.Statement
import ImportContext.Source.Expression

/-!
# Reading import statements

`import a.b as c, d` and `from ..a import (b, c as d)`. Any word may stand where a name is
awaited, and a list may end in a comma, as in the tree-sitter grammar for Python; which of these
are declarations is decided later.

Main definitions: `readModules`, `readMembers`, `readListing`.
-/

namespace ImportContext.Source

namespace Cursor

/-- The layout token ahead, if one stands there, and the cursor at the next token. -/
def ahead (e : Expected) (current : Nat) (k : Cursor) : Option Layout × Cursor :=
  let gap := lead e current false k.rest
  (gap.layout, k.advance gap.skip)

/-- The cursor at the next token, where no layout token may stand. -/
def token (e : Expected) (current : Nat) (k : Cursor) : Option Cursor :=
  match k.ahead e current with
  | (none, next) => some next
  | (some _, _) => none

/-- Takes a word. -/
def takeWord (k : Cursor) : Option (String × Cursor) :=
  match word? k.rest with
  | some w => some (w, k.advance w.length)
  | none => none

/-- Takes the given word. -/
def expectWord (w : String) (k : Cursor) : Option Cursor :=
  if word? k.rest = some w then some (k.advance w.length) else none

/-- Takes the given punctuation. -/
def expectMark (m : String) (k : Cursor) : Option Cursor :=
  if punctuation? false false k.rest = some m then some (k.advance m.length) else none

/-- Takes one character. -/
def expectChar (c : Char) (k : Cursor) : Option Cursor :=
  if k.rest.head? = some c then some (k.advance 1) else none

end Cursor

/-- The further parts of a dotted name, each behind a dot; `fuel` bounds their number. -/
def dottedTail (e : Expected) (current : Nat) : Nat → Cursor → Option (List String × Cursor)
  | 0, k => some ([], k)
  | fuel + 1, k =>
    match k.ahead e current with
    | (none, at_) =>
      match at_.expectChar '.' with
      | some k => do
        let k ← k.token {} current
        let (w, k) ← k.takeWord
        let (ws, k) ← dottedTail e current fuel k
        some (w :: ws, k)
      | none => some ([], k)
    | (some _, _) => some ([], k)

/-- A dotted name at a word; `e` is what may follow it. -/
def readDotted (e : Expected) (current : Nat) (k : Cursor) : Option (DottedName × Cursor) := do
  let (w, next) ← k.takeWord
  let (ws, next) ← dottedTail e current next.rest.length next
  some (⟨w :: ws, k.pos⟩, next)

/-- A dotted name and its alias. -/
def readItem (e : Expected) (current : Nat) (k : Cursor) : Option (ImportItem × Cursor) := do
  let (path, k) ← readDotted e current k
  match k.ahead e current with
  | (none, at_) =>
    match at_.expectWord "as" with
    | some next => do
      let next ← next.token {} current
      let (w, after) ← next.takeWord
      some (⟨path, some (w, next.pos)⟩, after)
    | none => some (⟨path, none⟩, k)
  | (some _, _) => some (⟨path, none⟩, k)

/-- Items between commas, with the position of a comma behind the last one. -/
def readItems (e : Expected) (current : Nat) :
    Nat → Cursor → Option (List ImportItem × Option Position × Cursor)
  | 0, _ => none
  | fuel + 1, k => do
    let (item, k) ← readItem e current k
    match k.ahead e current with
    | (none, at_) =>
      match at_.expectChar ',' with
      | some comma =>
        match comma.ahead e current with
        | (none, next) =>
          if (word? next.rest).isSome then do
            let (items, trailing, k) ← readItems e current fuel next
            some (item :: items, trailing, k)
          else some ([item], some at_.pos, comma)
        | (some _, _) => some ([item], some at_.pos, comma)
      | none => some ([item], none, k)
    | (some _, _) => some ([item], none, k)

/-- What may follow a name in a list without parentheses. -/
def inLine : Expected := { newline := true }

/-- What may follow a name between parentheses. -/
def inParentheses : Expected := { closer := true }

/-- The rest of an `import` statement that began at `pos`. -/
def readModules (current : Nat) (pos : Position) (k : Cursor) :
    Option (ImportStatement × Cursor) := do
  let k ← k.token {} current
  let (items, bareComma, k) ← readItems inLine current k.rest.length k
  some (⟨pos, .modules items, bareComma⟩, k)

/-- How many dots stand in the text between two cursors. -/
def dotsBetween (k next : Cursor) : Nat :=
  (k.rest.take (k.rest.length - next.rest.length)).count '.'

/-- Leading dots; `fuel` bounds their number. A dot in a comment between two of them counts. -/
def readDots (current : Nat) : Nat → Cursor → Option (Nat × Cursor)
  | 0, k => some (0, k)
  | fuel + 1, k =>
    match k.expectChar '.' with
    | some k => do
      let next ← k.token {} current
      let (n, last) ← readDots current fuel next
      if n = 0 then some (1, last) else some (1 + dotsBetween k next + n, last)
    | none => some (0, k)

/-- The module of a `from` statement; the cursor stands at the word `import` afterwards. -/
def readSource (current : Nat) (k : Cursor) : Option (ImportSource × Cursor) := do
  if k.rest.head? = some '.' then
    let (dots, next) ← readDots current k.rest.length k
    if word? next.rest = some "import" then some (.relative dots [] k.pos, next)
    else
      let (path, next) ← readDotted {} current next
      let next ← next.token {} current
      some (.relative dots path.parts k.pos, next)
  else if word? k.rest = some "__future__" then
    let next ← (k.advance 10).token {} current
    some (.future, next)
  else
    let (path, next) ← readDotted {} current k
    let next ← next.token {} current
    some (.absolute path, next)

/-- What a `from` statement that began at `pos` imports: all members, or a list of them, which may
stand between parentheses. -/
def readListing (current : Nat) (pos : Position) (source : ImportSource) (k : Cursor) :
    Option (ImportStatement × Cursor) :=
  match k.expectChar '*' with
  | some k => if source = .future then none else some (⟨pos, .wildcard source, none⟩, k)
  | none =>
    match k.expectChar '(' with
    | some k => do
      let k ← k.token {} current
      let (items, _, k) ← readItems inParentheses current k.rest.length k
      let k ← k.token inParentheses current
      let k ← k.expectChar ')'
      some (⟨pos, .members source items, none⟩, k)
    | none => do
      let (items, bareComma, k) ← readItems inLine current k.rest.length k
      some (⟨pos, .members source items, bareComma⟩, k)

/-- The rest of a `from` statement that began at `pos`. -/
def readMembers (current : Nat) (pos : Position) (k : Cursor) :
    Option (ImportStatement × Cursor) := do
  let k ← k.token {} current
  let (source, k) ← readSource current k
  let k ← k.expectWord "import"
  let k ← k.token {} current
  readListing current pos source k

end ImportContext.Source
