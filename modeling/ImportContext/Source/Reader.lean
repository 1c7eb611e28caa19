import ImportContext.Source.CasePattern
import ImportContext.Source.Simple
import ImportContext.Text.Lines

/-!
# Reading a source text

A text is read statement by statement with a stack of open blocks. A block is closed by a line
that is indented less; a clause such as `else` goes on with the statement that was closed last.
Indentation where none is awaited is passed over, and a block may be empty: a text is accepted if
the tree-sitter grammar for Python (version 0.21) gives it a tree without errors.

Main definitions: `Reader.step`, `Reader.run`, `readSource?`.
-/

namespace ImportContext.Source

namespace Reader

open Recognizer (Follow BracketKind)

/-- The kinds of blocks of a statement that may go on with another clause. -/
inductive Clause where
  | branch
  | loop
  | attempt
  | handler
  | groupHandler
  | fallback
  | last
deriving DecidableEq, Repr

/-- Words that may begin the next clause. -/
def Clause.continuations : Clause → List String
  | .branch => ["elif", "else"]
  | .loop => ["else"]
  | .attempt => ["except", "finally"]
  | .handler => ["except", "else", "finally"]
  | .groupHandler => ["except", "else", "finally"]
  | .fallback => ["finally"]
  | .last => []

/-- What a block belongs to. -/
inductive Opening where
  | module
  | definition (kind : DefinitionKind) (name : String) (firstLine : Nat)
  | clause (c : Clause)
  /-- The cases of a `match` statement. -/
  | cases

/-- An open block. -/
structure Block where
  width : Nat := 0
  opening : Opening := .module
  /-- Statements of the earlier blocks of the same statement. -/
  before : List Statement := []
  /-- Statements read so far, the last one first. -/
  inside : List Statement := []

/-- A statement whose last block was closed but which may go on. -/
structure Tail where
  clause : Clause
  body : List Statement

structure State where
  cursor : Cursor
  /-- The innermost block. -/
  block : Block := {}
  /-- The blocks around it, from the inside out. -/
  outer : List Block := []
  tail : Option Tail := none
  /-- The line of the first decorator that waits for its definition. -/
  decorated : Option Nat := none

/-- What strictly decreases with each step. -/
def State.size (s : State) : Nat :=
  2 * s.cursor.rest.length + s.outer.length

/-- Adds a statement to the innermost block. -/
def State.add (s : State) (stmt : Statement) : State :=
  { s with block := { s.block with inside := stmt :: s.block.inside } }

/-- A block with the given body ended at `pos`. -/
def State.endBlock (s : State) (opening : Opening) (body : List Statement) (pos : Position) :
    State :=
  match opening with
  | .definition kind name first => s.add (.defining kind name ⟨first, pos.lastLine⟩ body)
  | .clause c =>
    if c.continuations.isEmpty then s.add (.compound body) else { s with tail := some ⟨c, body⟩ }
  | _ => s.add (.compound body)

/-- Ends the statement that might have gone on; an attempt needs another clause. -/
def State.flush (s : State) : Option State :=
  match s.tail with
  | none => some s
  | some t =>
    if t.clause == .attempt then none
    else some ({ s with tail := none }.add (.compound t.body))

/-- The block behind a colon: indented lines, statements on the same line, or nothing. -/
def State.openBlock (s : State) (opening : Opening) (before : List Statement) (k : Cursor) :
    Option State :=
  match k.ahead { indent := true, newline := true, string := true } s.block.width with
  | (some (.indent width), k) =>
    some { s with
      cursor := k
      block := { width, opening, before }
      outer := s.block :: s.outer }
  | (some .newline, k) => some ({ s with cursor := k }.endBlock opening before k.pos)
  | (some .dedent, _) => none
  | (none, k) => do
    let (body, k) ← readSimples s.block.width (k.rest.length + 1) k
    some ({ s with cursor := k }.endBlock opening (before ++ body) k.pos)

/-- Takes the colon of a header. -/
def State.colon (s : State) (k : Cursor) : Option Cursor := do
  let k ← k.token {} s.block.width
  k.expectChar ':'

/-- Reads expressions of a header. -/
def State.read (s : State) (follow : Follow) (k : Cursor) : Option Cursor :=
  (k.expression follow s.block.width).map (·.2)

/-- What may follow an expression before a colon. -/
def toColon : Follow := { stops := [":"] }

/-- What may follow a list of expressions before a colon. -/
def listToColon : Follow := { list := true, trailing := true, stops := [":"] }

/-- A clause with a condition. -/
def State.conditional (s : State) (c : Clause) (before : List Statement) (k : Cursor) :
    Option State := do
  let k ← s.read toColon k
  let k ← s.colon k
  s.openBlock (.clause c) before k

/-- A clause with nothing between its word and the colon. -/
def State.bare (s : State) (c : Clause) (before : List Statement) (k : Cursor) :
    Option State := do
  let k ← s.colon k
  s.openBlock (.clause c) before k

/-- A `for` statement behind its word. -/
def State.forLoop (s : State) (k : Cursor) : Option State := do
  let k ← s.read { target := true, list := true, trailing := true, stops := ["in"] } k
  let k ← k.token {} s.block.width
  let k ← k.expectWord "in"
  let k ← s.read listToColon k
  let k ← s.colon k
  s.openBlock (.clause .loop) [] k

/-- A `with` statement behind its word. -/
def State.withBlock (s : State) (k : Cursor) : Option State := do
  let k ← s.read listToColon k
  let k ← s.colon k
  s.openBlock (.clause .last) [] k

/-- Type parameters in square brackets, if there are any. -/
def State.typeParameters (s : State) (k : Cursor) : Option Cursor := do
  let at_ ← k.token {} s.block.width
  match at_.expectChar '[' with
  | some k => (readBrackets (.index true) s.block.width k.rest).map k.advance
  | none => some k

/-- A function behind `def`; its lines begin with `first`. -/
def State.functionBlock (s : State) (first : Nat) (k : Cursor) : Option State := do
  let k ← k.token {} s.block.width
  let (name, k) ← k.takeWord
  let k ← s.typeParameters k
  let k ← k.token {} s.block.width
  let k ← k.expectChar '('
  let n ← readParameters s.block.width k.rest
  let k := k.advance n
  let at_ ← k.token {} s.block.width
  let k ← match at_.expectMark "->" with
    | some k => s.read { stops := [":"], types := true } k
    | none => some k
  let k ← s.colon k
  { s with decorated := none }.openBlock (.definition .functionDef name first) [] k

/-- A class behind its word; its lines begin with `first`. -/
def State.classBlock (s : State) (first : Nat) (k : Cursor) : Option State := do
  let k ← k.token {} s.block.width
  let (name, k) ← k.takeWord
  let k ← s.typeParameters k
  let at_ ← k.token {} s.block.width
  let k ← match at_.expectChar '(' with
    | some k => (readBrackets .bases s.block.width k.rest).map k.advance
    | none => some k
  let k ← s.colon k
  { s with decorated := none }.openBlock (.definition .classDef name first) [] k

/-- The expressions of an `except` clause. -/
def State.caught (s : State) (k : Cursor) : Option Cursor := do
  let at_ ← k.token { string := true } s.block.width
  if at_.rest.head? = some ':' then some k
  else
    let k ← s.read { stops := [":", ","] } k
    let at_ ← k.token {} s.block.width
    match at_.expectChar ',' with
    | some k => s.read toColon k
    | none => some k

/-- The next clause of a statement, if the word `w` begins one. -/
def State.continue? (s : State) (t : Tail) (w : String) (k : Cursor) : Option (Option State) :=
  let group := k.rest.drop 6 |>.head? |> (· == some '*')
  let next := k.advance w.length
  let s := { s with tail := none }
  if !t.clause.continuations.contains w then none
  else if w == "elif" then some (s.conditional .branch t.body next)
  else if w == "else" then
    let after := if t.clause == .handler || t.clause == .groupHandler then Clause.fallback else .last
    some (s.bare after t.body next)
  else if w == "finally" then some (s.bare .last t.body next)
  else if w == "except" then
    if group && t.clause != .handler then
      some do
        let k ← s.read toColon (next.advance 1)
        let k ← s.colon k
        s.openBlock (.clause .groupHandler) t.body k
    else if t.clause == .groupHandler then none
    else
      some do
        let k ← s.caught next
        let k ← s.colon k
        s.openBlock (.clause .handler) t.body k
  else none

/-- A `case` clause behind its word. -/
def State.caseBlock (s : State) (k : Cursor) : Option State := do
  let n ← readPatterns s.block.width k.rest
  let k := k.advance n
  let at_ ← k.token {} s.block.width
  let k ← match at_.expectWord "if" with
    | some k => s.read { stops := [":"], conditional := false } k
    | none => some k
  let k ← s.colon k
  s.openBlock (.clause .last) [] k

/-- A `match` statement behind its word: its block is empty or holds cases. -/
def State.matchBlock (s : State) (k : Cursor) : Option State := do
  let k ← s.read listToColon k
  let k ← s.colon k
  match k.ahead { indent := true, newline := true } s.block.width with
  | (some (.indent _), next) =>
    let first ← next.token {} 0
    if word? first.rest = some "case" then s.openBlock .cases [] k else none
  | (some .newline, _) => s.openBlock .cases [] k
  | _ => none

/-- A decorator behind its mark, at `pos`. -/
def State.decorator (s : State) (pos : Position) (k : Cursor) : Option State := do
  let k ← s.read { newline := true } k
  match k.ahead { newline := true } s.block.width with
  | (some .newline, k) => some { s with cursor := k, decorated := some (s.decorated.getD pos.line) }
  | _ => none

/-- A statement that begins with `async`, if one does. -/
def State.async? (s : State) (first : Nat) (k : Cursor) : Option State := do
  let k ← k.token {} s.block.width
  let (w, k) ← k.takeWord
  if w == "def" then s.functionBlock first k
  else if s.decorated.isSome then none
  else if w == "for" then s.forLoop k
  else if w == "with" then s.withBlock k
  else none

/-- A line of simple statements. -/
def State.simples (s : State) (k : Cursor) : Option State := do
  let (body, k) ← readSimples s.block.width (k.rest.length + 1) k
  some (body.foldl State.add { s with cursor := k })

/-- A statement that begins with the word `w` at `k`, where no clause goes on. -/
def State.statement (s : State) (w : String) (k : Cursor) : Option State :=
  let next := k.advance w.length
  let first := s.decorated.getD k.pos.line
  if w == "def" then s.functionBlock first next
  else if w == "class" then s.classBlock first next
  else if s.decorated.isSome then if w == "async" then s.async? first next else none
  else if w == "if" then s.conditional .branch [] next
  else if w == "while" then s.conditional .loop [] next
  else if w == "for" then s.forLoop next
  else if w == "with" then s.withBlock next
  else if w == "try" then s.bare .attempt [] next
  else
    let special :=
      if w == "async" then s.async? first next
      else if w == "match" then s.matchBlock next
      else none
    match special with
    | some s => some s
    | none => s.simples k

/-- A statement at a token. -/
def State.atToken (s : State) (k : Cursor) : Option State :=
  let word := if (openQuote? k.rest).isSome then none else word? k.rest
  match s.tail, word with
  | some t, some w =>
    match s.continue? t w k with
    | some result => result
    | none => s.flush.bind fun s => dispatch s word
  | _, _ => s.flush.bind fun s => dispatch s word
where
  /-- A statement that goes on with no other. -/
  dispatch (s : State) (word : Option String) : Option State :=
    match s.block.opening, word with
    | .cases, some w => if w == "case" then s.caseBlock (k.advance 4) else none
    | .cases, none => none
    | _, some w => s.statement w k
    | _, none =>
      match k.expectChar '@' with
      | some next => s.decorator k.pos next
      | none => if s.decorated.isSome then none else s.simples k

/-- What a step does. -/
inductive Outcome where
  | done (body : List Statement)
  | fail
  | next (s : State)

/-- Reads one statement, opens or closes one block, or ends. -/
def step (s : State) : Outcome :=
  let inside := !s.outer.isEmpty && s.decorated.isNone
  let attempt := s.tail.any fun t => t.clause == .attempt
  match s.cursor.ahead
      { dedent := inside && !attempt, string := s.decorated.isNone,
        handler := s.tail.any fun t => t.clause.continuations.contains "except" }
      s.block.width with
  | (some .dedent, k) =>
    match s.flush, s.outer with
    | some s, parent :: outer =>
      if inside then
        let closed : State := { s with cursor := k, block := parent, outer := outer }
        .next (closed.endBlock s.block.opening (s.block.before ++ s.block.inside.reverse) k.pos)
      else .fail
    | _, _ => .fail
  | (some _, _) => .fail
  | (none, k) =>
    if k.rest.isEmpty then
      match s.flush with
      | some s =>
        if s.outer.isEmpty && s.decorated.isNone then .done s.block.inside.reverse else .fail
      | none => .fail
    else
      match s.atToken k with
      | some s => .next s
      | none => .fail

/-- Reads to the end of the text. -/
def run (s : State) : Option (List Statement) :=
  match step s with
  | .done body => some body
  | .fail => none
  | .next s' => if s'.size < s.size then run s' else none
termination_by s.size

end Reader

/-- The statements of a source text; `none` when the text does not follow the grammar. -/
def readSource? (source : String) : Option (List Statement) :=
  Reader.run { cursor := Cursor.ofText (Text.unifyNewlines source.toList) }

end ImportContext.Source
