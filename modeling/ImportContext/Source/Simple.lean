import ImportContext.Source.ImportReader

/-!
# Simple statements

The statements without blocks of the tree-sitter grammar for Python, `print` and `exec` of old
programs among them. Each reader starts behind the statement's first word and ends behind its last
token; `readSimples` reads a line of them.

Main definitions: `readSimple`, `readSimples`.
-/

namespace ImportContext.Source

open Recognizer (Follow Reading)

/-- Reads expressions at a cursor. -/
def Cursor.expression (follow : Follow) (current : Nat) (k : Cursor) : Option (Reading × Cursor) :=
  match readExpression follow current k.rest with
  | some r => some (r, k.advance r.length)
  | none => none

/-- What may follow an expression that ends a statement. -/
def toLineEnd : Follow := { newline := true, stops := [";"] }

/-- What may follow a list of expressions that ends a statement. -/
def listToLineEnd : Follow := { newline := true, list := true, trailing := true, stops := [";"] }

/-- Whether a statement may end here. -/
def Cursor.atEnd (current : Nat) (k : Cursor) : Bool :=
  match k.ahead { newline := true, string := true } current with
  | (some .newline, _) => true
  | (none, next) => next.rest.head? == some ';'
  | _ => false

/-- Marks of augmented assignments. -/
def augmentedMarks : List String :=
  ["+=", "-=", "*=", "/=", "@=", "//=", "%=", "**=", ">>=", "<<=", "&=", "^=", "|="]

/-- What may follow the parts of an assignment. -/
def assignmentFollow : Follow :=
  { newline := true, list := true, trailing := true, stops := [";", "=", ":"] ++ augmentedMarks }

/-- The rest of a `yield` that ends a statement. -/
def readYield (current : Nat) (k : Cursor) : Option Cursor :=
  if k.atEnd current then some k
  else do
    let k ← k.token { string := true } current
    match k.expectWord "from" with
    | some k => (k.expression toLineEnd current).map (·.2)
    | none => (k.expression listToLineEnd current).map (·.2)

/-- A type annotation, with the constraints that further colons add. -/
def readHint (current : Nat) : Nat → Cursor → Option Cursor
  | 0, _ => none
  | fuel + 1, k => do
    let (_, k) ← k.expression
      { newline := true, stops := [";", "=", ":"], types := true } current
    match k.ahead { newline := true } current with
    | (none, at_) =>
      match at_.expectMark ":" with
      | some next => readHint current fuel next
      | none => some k
    | _ => some k

/-- The parts of an expression statement from left to right. `chain` is true while every part so
far was assigned to; `names` are the plain names among them. -/
def readParts (current : Nat) : Nat → Bool → List String → Cursor → Option (List String × Cursor)
  | 0, _, _, _ => none
  | fuel + 1, chain, names, k =>
    match k.expectWord "yield" with
    | some next => (readYield current next).map fun k => (names, k)
    | none => do
      let (r, next) ← k.expression assignmentFollow current
      let bound :=
        if chain && r.isName then names ++ [String.ofList (k.rest.take r.length)] else names
      match next.ahead { newline := true } current with
      | (some _, _) => some (names, next)
      | (none, at_) =>
        match punctuation? false false at_.rest with
        | none => none
        | some m =>
          if m == ";" then some (names, next)
          else if !r.assignable then none
          else if m == "=" then do
            let k ← (at_.advance 1).token { string := true } current
            readParts current fuel chain bound k
          else if m == ":" then do
            let k ← readHint current at_.rest.length (at_.advance 1)
            match k.ahead { newline := true } current with
            | (some _, _) => some (bound, k)
            | (none, at_) =>
              match at_.expectMark "=" with
              | some k => do
                let k ← k.token { string := true } current
                readParts current fuel chain bound k
              | none => some (bound, k)
          else if augmentedMarks.contains m then do
            let k ← (at_.advance m.length).token { string := true } current
            readParts current fuel false names k
          else none

/-- An expression statement or assignment. -/
def readExpressionStatement (current : Nat) (k : Cursor) : Option (Statement × Cursor) := do
  let (names, next) ← readParts current k.rest.length true [] k
  if names.isEmpty then some (.other, next)
  else some (.assigning names ⟨k.pos.line, next.pos.lastLine⟩, next)

/-- The rest of a `print` statement. -/
def readPrint (current : Nat) (k : Cursor) : Option Cursor := do
  let k ← k.token { newline := true, string := true } current
  let k := (k.expectMark ">>").getD k
  let (_, k) ← k.expression listToLineEnd current
  if k.atEnd current then some k else none

/-- What an `exec` statement executes: a literal or a word. -/
def readExecuted (current : Nat) (k : Cursor) : Option Cursor :=
  match openQuote? k.rest with
  | some (q, n) =>
    (readLiteral q current (k.rest.drop n)).map fun used => k.advance (n + used)
  | none => do
    let (w, next) ← k.takeWord
    if Recognizer.operatorWords.contains w then none else some next

/-- The scopes that an `exec` statement may name behind `in`. -/
def readScopes (current : Nat) (k : Cursor) : Option Cursor :=
  match k.ahead { newline := true } current with
  | (none, at_) =>
    match at_.expectWord "in" with
    | some k => do
      let (_, k) ← k.expression { toLineEnd with list := true } current
      if k.atEnd current then some k else none
    | none => if k.atEnd current then some k else none
  | _ => some k

/-- The rest of an `exec` statement. -/
def readExec (current : Nat) (k : Cursor) : Option Cursor := do
  let k ← k.token { newline := true, string := true } current
  let k ← readExecuted current k
  readScopes current k

/-- The rest of a `type` statement. -/
def readTypeAlias (current : Nat) (k : Cursor) : Option Cursor := do
  let (_, k) ← k.expression { stops := ["="], types := true } current
  let k ← k.token {} current
  let k ← k.expectMark "="
  let (_, k) ← k.expression { toLineEnd with types := true } current
  if k.atEnd current then some k else none

/-- Words between commas. -/
def readWords (current : Nat) : Nat → Cursor → Option Cursor
  | 0, _ => none
  | fuel + 1, k => do
    let k ← k.token {} current
    let (_, k) ← k.takeWord
    match k.ahead { newline := true } current with
    | (none, at_) =>
      match at_.expectChar ',' with
      | some k => readWords current fuel k
      | none => some k
    | _ => some k

/-- The exception that a `raise` statement may name; `next` stands at the token behind `k`. -/
def readException (current : Nat) (k next : Cursor) : Option Cursor :=
  match next.expectWord "from" with
  | some _ => some k
  | none => (k.expression { listToLineEnd with stops := [";", "from"] } current).map (·.2)

/-- The cause that a `raise` statement may name behind `from`. -/
def readCause (current : Nat) (k : Cursor) : Option Cursor :=
  match k.ahead { newline := true } current with
  | (none, at_) =>
    match at_.expectWord "from" with
    | some k => (k.expression toLineEnd current).map (·.2)
    | none => some k
  | _ => some k

/-- The rest of a `raise` statement. -/
def readRaise (current : Nat) (k : Cursor) : Option Cursor :=
  if k.atEnd current then some k
  else do
    let next ← k.token { newline := true, string := true } current
    let k ← readException current k next
    readCause current k

/-- A list of expressions that may be missing. -/
def readOptionalList (current : Nat) (k : Cursor) : Option Cursor :=
  if k.atEnd current then some k else (k.expression listToLineEnd current).map (·.2)

/-- A simple statement that begins with the word `w`; `k` stands at the word. Words that begin no
simple statement are names. -/
def readSimpleWord (current : Nat) (w : String) (k : Cursor) : Option (Statement × Cursor) :=
  let next := k.advance w.length
  let plain (r : Option Cursor) : Option (Statement × Cursor) := r.map fun k => (.other, k)
  if w == "import" then
    (readModules current k.pos next).map fun (s, k) => (.importing s, k)
  else if w == "from" then
    (readMembers current k.pos next).map fun (s, k) => (.importing s, k)
  else if w == "pass" || w == "break" || w == "continue" then some (.other, next)
  else if w == "return" then plain (readOptionalList current next)
  else if w == "del" then plain ((next.expression listToLineEnd current).map (·.2))
  else if w == "assert" then
    plain ((next.expression { toLineEnd with list := true } current).map (·.2))
  else if w == "raise" then plain (readRaise current next)
  else if w == "global" || w == "nonlocal" then plain (readWords current next.rest.length next)
  else
    let soft :=
      if w == "print" then readPrint current next
      else if w == "exec" then readExec current next
      else if w == "type" then readTypeAlias current next
      else none
    match soft with
    | some k => some (.other, k)
    | none => readExpressionStatement current k

/-- A simple statement at a token. -/
def readSimple (current : Nat) (k : Cursor) : Option (Statement × Cursor) :=
  match if (openQuote? k.rest).isSome then none else word? k.rest with
  | some w => readSimpleWord current w k
  | none => readExpressionStatement current k

/-- Simple statements between semicolons up to the end of the line, and the cursor there. -/
def readSimples (current : Nat) : Nat → Cursor → Option (List Statement × Cursor)
  | 0, _ => none
  | fuel + 1, k => do
    let (s, k) ← readSimple current k
    match k.ahead { newline := true } current with
    | (some .newline, k) => some ([s], k)
    | (some _, _) => none
    | (none, at_) => do
      let k ← at_.expectChar ';'
      match k.ahead { newline := true, string := true } current with
      | (some .newline, k) => some ([s], k)
      | (some _, _) => none
      | (none, next) => do
        let (rest, k) ← readSimples current fuel next
        some (s :: rest, k)

end ImportContext.Source
