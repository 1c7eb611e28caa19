import ImportContext.Source.Token

/-!
# Expressions

An expression is recognised by an automaton with a stack: the mode says what is awaited, the
frames say which brackets, conditions, parameter lists and replacement fields are open. Operator
precedence does not change which texts are expressions, so the automaton only tells apart places
for a whole expression from places for an operand of an arithmetic or comparison operator.

Nothing is built from an expression: a reading is the number of characters it takes, whether
each of its parts could be assigned to, and whether it is one bare name. The grammar is that of
tree-sitter for Python (version 0.21), which is laxer than the language.

Main definitions: `Recognizer.step`, `Recognizer.run`, `readExpression`, `readBrackets`.
-/

namespace ImportContext.Source

namespace Recognizer

/-- What the last operand is, as far as naming and assigning are concerned. -/
inductive Shape where
  | name
  /-- An attribute, a subscript, or a bracketed list of things that can be assigned to. -/
  | place
  | text
  | other
deriving DecidableEq, Repr

/-- The part being read at one bracket depth. -/
structure Level where
  /-- Only one operand so far, with no operator. -/
  plain : Bool := true
  /-- The operand begins an expression, so that a name may be followed by `:=`. -/
  fresh : Bool := true
  /-- A star was read that needs a name, an attribute or a subscript. -/
  needPlace : Bool := false
  /-- The operand follows a star. -/
  starred : Bool := false
  shape : Shape := .other

/-- Whether the part could be assigned to. -/
def Level.assignable (l : Level) : Bool :=
  l.plain && !l.needPlace && (l.shape == .name || l.shape == .place)

inductive BracketKind where
  | group
  | list
  | braces
  | call
  /-- The parenthesised arguments of a class statement. -/
  | bases
  /-- A subscript; `types` when its items may be type parameters. -/
  | index (types : Bool)
deriving DecidableEq, Repr

/-- The part of a bracket that is being read. -/
inductive Slot where
  | element
  | star
  | doubleStar
  | yielded
  /-- The value of a keyword argument. -/
  | value
  /-- The value of a dictionary entry. -/
  | pair
  | slice (colons : Nat)
  | target
  | source
  | test
deriving DecidableEq, Repr

structure Bracket where
  kind : BracketKind
  slot : Slot := .element
  /-- No comma was read yet. -/
  first : Bool := true
  /-- Every element so far could be assigned to. -/
  assignable : Bool := true
  /-- Whether braces are known to hold a dictionary or a set. -/
  dict : Option Bool := none
  outer : Level := {}

/-- The part of a parameter that is being read. -/
inductive ParamSlot where
  | name
  | starName
  | mark
  | hint
  | default
deriving DecidableEq, Repr

inductive Frame where
  | bracket (b : Bracket)
  /-- A conditional expression that waits for its `else`. -/
  | condition
  /-- The parameters of a `lambda`, or those of a function in parentheses. -/
  | params (isLambda : Bool) (slot : ParamSlot) (outer : Level)
  /-- A replacement field, of a literal or of another field's format. -/
  | field (literal : Option Quote) (outer : Level)

inductive Mode where
  | operand (whole : Bool)
  | element (first : Bool)
  /-- An operand that may be missing. -/
  | optional
  | after
  | attribute
  /-- Behind the word `await`, a name or the beginning of an operand. -/
  | awaited
  | yielded
  | asyncFor
  | isNot
  | notIn
  | target (first : Bool)
  | param (first : Bool)
  | paramStar
  | paramDoubleStar
  /-- Behind a lone comma that only a closing bracket may follow. -/
  | closing
  | fieldStart
  /-- Behind `=` or a conversion in a replacement field. -/
  | fieldMark (conversion : Bool)
  | format
deriving DecidableEq, Repr

structure State where
  frames : List Frame := []
  mode : Mode := .operand true
  level : Level := {}
  /-- Inside the braces of a formatted string. -/
  formatted : Bool := false
  /-- Every part of the outermost list so far could be assigned to. -/
  assignable : Bool := true
  /-- The outermost list has one part and no comma. -/
  single : Bool := true

/-- What may follow an expression at its outermost level. -/
structure Follow where
  newline : Bool := false
  /-- Several expressions may stand between commas. -/
  list : Bool := false
  /-- A comma may end the list. -/
  trailing : Bool := false
  /-- Only things that can be assigned to are read. -/
  target : Bool := false
  /-- An `if` begins a conditional expression. -/
  conditional : Bool := true
  /-- Tokens that end the expression. -/
  stops : List String := []
  /-- The reading ends with the outermost bracket. -/
  bracketOnly : Bool := false
  /-- A type is read. -/
  types : Bool := false

inductive Token where
  | word (w : String)
  | number
  | quote (q : Quote)
  | mark (m : String)
deriving DecidableEq, Repr

/-! ## Moves -/

def State.push (st : State) (f : Frame) (mode : Mode) : State :=
  { st with frames := f :: st.frames, mode, level := {} }

/-- Opens a bracket around a new list of elements. -/
def State.openBracket (st : State) (kind : BracketKind) : State :=
  st.push (.bracket { kind, outer := st.level }) (.element true)

/-- Goes on to an operand of the same part. -/
def State.operator (st : State) (whole : Bool) : State :=
  { st with
    mode := .operand whole
    level := { plain := false, fresh := whole } }

/-- Goes on to the condition of a conditional expression. -/
def State.pushCondition (st : State) : State :=
  { st.operator true with frames := .condition :: st.frames }

/-- An operand of the given shape was read. -/
def State.took (st : State) (shape : Shape) : State :=
  { st with mode := .after, level := { st.level with shape } }

/-- A name was read. -/
def State.tookName (st : State) : State :=
  { st with
    mode := .after
    level := { st.level with
      shape := if st.level.starred then .place else .name, needPlace := false } }

/-- Replaces the innermost bracket and begins a new part in it. -/
def State.slot (st : State) (b : Bracket) (rest : List Frame) (mode : Mode) : State :=
  { st with frames := .bracket b :: rest, mode, level := {} }

/-- An operand begins with the token. -/
def operandStep (whole : Bool) (st : State) : Token → Option State
  | .number => some (st.took .other)
  | .quote _ => none
  | .word w =>
    if whole && w == "not" then some (st.operator true)
    else if whole && w == "lambda" then some (st.push (.params true .name st.level) (.param true))
    else if w == "await" then
      some { st with mode := .awaited, level := { st.level with shape := .name } }
    else if w == "True" || w == "False" || w == "None" then some (st.took .other)
    else some st.tookName
  | .mark m =>
    if m == "..." then some (st.took .other)
    else if m == "+" || m == "-" || m == "~" then
      if st.level.needPlace then none else some (st.operator false)
    else if m == "*" then
      if st.level.needPlace then none
      else some { st with
        mode := .operand false
        level := { st.level with needPlace := true, starred := true, fresh := false } }
    else if m == "(" then some (st.openBracket .group)
    else if m == "[" then some (st.openBracket .list)
    else if m == "\x7b" then some (st.openBracket .braces)
    else none

/-- The closing mark of a bracket. -/
def BracketKind.closer : BracketKind → String
  | .group => ")"
  | .call => ")"
  | .bases => ")"
  | .list => "]"
  | .index _ => "]"
  | .braces => "\x7d"

/-- Whether a bracket may close behind the part being read. -/
def Bracket.closable (b : Bracket) : Bool :=
  match b.kind, b.slot with
  | _, .target => false
  | _, .source => true
  | _, .test => true
  | .braces, .element => b.dict != some true
  | .braces, .star => b.dict != some true
  | .braces, .yielded => b.dict != some true
  | _, _ => true

/-- Leaves the innermost bracket; `last` says whether its last element could be assigned to. -/
def State.close (st : State) (b : Bracket) (rest : List Frame) (last : Bool) : State :=
  let assignable := b.assignable && last && b.slot != .source && b.slot != .test &&
    b.slot != .yielded
  let shape := match b.kind with
    | .group => if assignable then Shape.place else .other
    | .list => if assignable then Shape.place else .other
    | .index _ => .place
    | _ => .other
  let needPlace := match b.kind with
    | .index _ => false
    | _ => b.outer.needPlace
  { st with frames := rest, mode := .after, level := { b.outer with shape, needPlace } }

/-- The start of a `for` clause in a bracket. -/
def State.clause (st : State) (b : Bracket) (rest : List Frame) : State :=
  st.slot { b with slot := .target } rest (.target true)

/-- Whether a comprehension may begin or go on behind the part being read. -/
def Bracket.comprehensible (b : Bracket) : Bool :=
  match b.slot with
  | .source => true
  | .test => true
  | .pair => b.first
  | .element =>
    b.first && match b.kind with
      | .group => true
      | .list => true
      | .call => true
      | .braces => b.dict == none
      | _ => false
  | _ => false

/-- The bracket behind a comma, ready for the next element. -/
def Bracket.comma? (b : Bracket) (level : Level) : Option Bracket :=
  let next := { b with
    slot := .element
    first := false
    assignable := b.assignable && (b.slot == .element || b.slot == .star) && level.assignable }
  match b.kind, b.slot with
  | .braces, .pair => some { next with dict := some true }
  | .braces, .doubleStar => some { next with dict := some true }
  | .braces, _ => if b.dict == some true then none else some { next with dict := some false }
  | _, _ => some next

/-- A separator, clause or closing mark behind a part; `absent` when the part is missing. -/
def separatorStep (absent : Bool) (st : State) (t : Token) : Option State :=
  match st.frames with
  | [] => none
  | .condition :: _ => none
  | .bracket b :: rest =>
    match t with
    | .mark m =>
      if m == b.kind.closer then
        if b.closable then some (st.close b rest (absent || st.level.assignable)) else none
      else if m == "," then
        match b.slot with
        | .target =>
          if st.level.assignable then some { st with mode := .target false, level := {} } else none
        | .source => if absent then none else some { st with mode := .optional, level := {} }
        | .test => none
        | _ => (b.comma? st.level).map fun b => st.slot b rest (.element false)
      else if m == ":" then
        match b.kind, b.slot with
        | .braces, .element =>
          if absent || b.dict == some false then none
          else some (st.slot { b with slot := .pair, dict := some true } rest (.operand true))
        | .index _, .element => some (st.slot { b with slot := .slice 1 } rest .optional)
        | .index _, .slice n =>
          if n < 2 then some (st.slot { b with slot := .slice (n + 1) } rest .optional) else none
        | _, _ => none
      else if m == "=" then
        match b.kind, b.slot with
        | .call, .element =>
          if st.level.plain && st.level.shape == .name && !absent then
            some (st.slot { b with slot := .value } rest (.operand true))
          else none
        | .bases, .element =>
          if st.level.plain && st.level.shape == .name && !absent then
            some (st.slot { b with slot := .value } rest (.operand true))
          else none
        | _, _ => none
      else none
    | .word w =>
      if w == "for" then if b.comprehensible then some (st.clause b rest) else none
      else if w == "async" then
        if b.comprehensible then some { st with mode := .asyncFor } else none
      else if w == "if" then
        if b.slot == .source || b.slot == .test then
          some (st.slot { b with slot := .test } rest (.operand true))
        else none
      else if w == "in" then
        if b.slot == .target && (absent || st.level.assignable) then
          some (st.slot { b with slot := .source } rest (.operand true))
        else none
      else none
    | _ => none
  | .params isLambda slot outer :: rest =>
    match t with
    | .mark m =>
      let again (slot : ParamSlot) : State :=
        { st with
          frames := .params isLambda slot outer :: rest, mode := .operand true, level := {} }
      if m == "," then
        some { st with
          frames := .params isLambda .name outer :: rest, mode := .param false, level := {} }
      else if m == ":" then
        if isLambda then some ({ st with frames := rest }.operator true)
        else if slot == .name || slot == .starName || slot == .hint then
          some (again .hint)
        else none
      else if m == "=" then
        if slot == .name || (slot == .hint && !isLambda) then some (again .default)
        else none
      else if m == ")" && !isLambda then
        some { st with frames := rest, mode := .after, level := outer }
      else none
    | _ => none
  | .field _ _ :: _ =>
    match t with
    | .mark m =>
      if m == "=" && !absent then some { st with mode := .fieldMark true }
      else if m == "!" then some { st with mode := .fieldMark false }
      else if m == ":" then some { st with mode := .format }
      else if m == "," && !absent then some { st with mode := .optional, level := {} }
      else none
    | _ => none

/-- Marks of arithmetic and comparison operators. -/
def operatorMarks : List String :=
  ["+", "-", "*", "@", "/", "%", "//", "**", "|", "&", "^", "<<", ">>", "<", "<=", "==", "!=",
    ">=", ">", "<>"]

/-- Whether operators may follow the operand: not in the targets of a loop nor in the name of a
parameter. -/
def State.operatorsAllowed (follow : Follow) (st : State) : Bool :=
  match st.frames with
  | [] => !follow.target
  | .bracket b :: _ => b.slot != .target
  | .params _ slot _ :: _ => slot == .hint || slot == .default
  | _ => true

/-- Whether a call, a subscript or an attribute may follow the operand. -/
def State.trailersAllowed (st : State) : Bool :=
  match st.frames with
  | .params _ slot _ :: _ => slot == .hint || slot == .default
  | _ => true

/-- An operator behind an operand. -/
def operatorStep (follow : Follow) (st : State) : Token → Option State
  | .mark m =>
    if operatorMarks.contains m then some (st.operator false)
    else if m == ":=" then some (st.operator true)
    else none
  | .word w =>
    if w == "in" then some (st.operator false)
    else if w == "is" then some { st with mode := .isNot }
    else if w == "not" then some { st with mode := .notIn }
    else if w == "and" || w == "or" || w == "as" then some (st.operator true)
    else if w == "if" then
      match st.frames with
      | [] => if follow.conditional then some st.pushCondition else none
      | .bracket b :: _ =>
        if b.slot == .source || b.slot == .test then none
        else some st.pushCondition
      | _ => some st.pushCondition
    else if w == "else" then
      match st.frames with
      | .condition :: rest => some { st.operator true with frames := rest }
      | _ => none
    else none
  | _ => none

/-- Whether a subscript of the operand may hold type parameters. -/
def State.takesTypes (follow : Follow) (st : State) : Bool :=
  st.level.plain && st.level.shape == .name &&
    match st.frames with
    | [] => follow.types
    | .params _ slot _ :: _ => slot == .hint
    | .bracket b :: _ => b.kind == .index true
    | _ => false

/-- The token behind a complete operand. -/
def afterStep (follow : Follow) (st : State) (t : Token) : Option State :=
  let trailer : Option State :=
    if st.trailersAllowed then
      match t with
      | .mark m =>
        if m == "." then some { st with mode := .attribute }
        else if m == "(" then some (st.openBracket .call)
        else if m == "[" then some (st.openBracket (.index (st.takesTypes follow)))
        else none
      | _ => none
    else none
  match trailer with
  | some next => some next
  | none =>
    if st.level.needPlace then none
    else
      let operated := if st.operatorsAllowed follow then operatorStep follow st t else none
      match operated with
      | some next => some next
      | none => separatorStep false st t

/-- Words that go on with the expression behind an operand. -/
def operatorWords : List String :=
  ["in", "is", "not", "and", "or", "as", "if", "else", "for"]

/-- Whether an operand can begin with the token where an operator could stand too. -/
def startsOperand (st : State) (follow : Follow) : Token → Bool
  | .number => true
  | .quote _ => true
  | .word w => !operatorWords.contains w && !(st.frames.isEmpty && follow.stops.contains w)
  | .mark m => ["...", "+", "-", "~", "*", "(", "[", "\x7b"].contains m

/-- Whether an optional operand begins with the token. -/
def startsOptional (st : State) (follow : Follow) : Token → Bool
  | .word w =>
    match st.frames with
    | [] => !follow.stops.contains w
    | .bracket b :: _ => !(b.slot == .source && (w == "for" || w == "if" || w == "async"))
    | _ => true
  | t => startsOperand st follow t

/-- The token at the beginning of a bracket's element. -/
def elementStep (first : Bool) (st : State) (t : Token) : Option State :=
  match st.frames with
  | .bracket b :: rest =>
    let closes := match b.kind with
      | .index _ => !first
      | _ => true
    match t with
    | .mark m =>
      if m == b.kind.closer then if closes then some (st.close b rest true) else none
      else if m == "," then
        match b.kind with
        | .call => if first then some { st with mode := .closing } else none
        | .bases => if first then some { st with mode := .closing } else none
        | .braces => if first then some { st with mode := .closing } else none
        | _ => none
      else if m == "*" then
        match b.kind with
        | .index _ => operandStep true st t
        | .braces =>
          if b.dict == some true then none
          else some (st.slot { b with slot := .star } rest (.operand true))
        | _ => some (st.slot { b with slot := .star } rest (.operand true))
      else if m == "**" then
        match b.kind with
        | .call => some (st.slot { b with slot := .doubleStar } rest (.operand true))
        | .bases => some (st.slot { b with slot := .doubleStar } rest (.operand true))
        | .braces =>
          if b.dict == some false then none
          else some (st.slot { b with slot := .doubleStar, dict := some true } rest (.operand true))
        | .index true => some (st.slot { b with slot := .doubleStar } rest (.operand false))
        | _ => none
      else if m == ":" then
        match b.kind with
        | .index _ => some (st.slot { b with slot := .slice 1 } rest .optional)
        | _ => none
      else operandStep true st t
    | .word w =>
      if w == "yield" then
        match b.kind with
        | .group => some (st.slot { b with slot := .yielded } rest .yielded)
        | .list => some (st.slot { b with slot := .yielded } rest .yielded)
        | .braces =>
          if b.dict == some true then none
          else some (st.slot { b with slot := .yielded } rest .yielded)
        | _ => operandStep true st t
      else operandStep true st t
    | _ => operandStep true st t
  | _ => none

/-- The token at the beginning of a parameter. -/
def paramStep (first : Bool) (st : State) (t : Token) : Option State :=
  match st.frames with
  | .params isLambda _ outer :: rest =>
    let read (slot : ParamSlot) : State :=
      { st with frames := .params isLambda slot outer :: rest, mode := .after }
    match t with
    | .word _ => some (read .name)
    | .mark m =>
      if m == "*" then some { st with mode := .paramStar }
      else if m == "**" then some { st with mode := .paramDoubleStar }
      else if m == "/" then some (read .mark)
      else if m == "(" then some (st.openBracket .group)
      else if m == ":" && isLambda then separatorStep true st t
      else if m == ")" && !isLambda then separatorStep true st t
      else none
    | _ => if first then none else none
  | _ => none

/-- One token applied to a state. String literals are applied by `step`. -/
def tokenStep (follow : Follow) (st : State) (t : Token) : Option State :=
  match st.mode with
  | .operand whole => operandStep whole st t
  | .element first => elementStep first st t
  | .optional =>
    if startsOptional st follow t then operandStep true { st with level := {} } t
    else separatorStep true st t
  | .after => afterStep follow st t
  | .attribute =>
    match t with
    | .word _ =>
      some { st with mode := .after, level := { st.level with shape := .place, needPlace := false } }
    | _ => none
  | .awaited =>
    if startsOperand st follow t then operandStep false (st.operator false) t
    else afterStep follow st.tookName t
  | .yielded =>
    match t with
    | .word w => if w == "from" then some (st.operator true) else operandStep true st t
    | _ => if startsOperand st follow t then operandStep true st t else separatorStep true st t
  | .asyncFor =>
    match t, st.frames with
    | .word w, .bracket b :: rest => if w == "for" then some (st.clause b rest) else none
    | _, _ => none
  | .isNot =>
    if t == .word "not" then some (st.operator false)
    else operandStep false (st.operator false) t
  | .notIn => if t == .word "in" then some (st.operator false) else none
  | .target first =>
    if !first && t == .word "in" then separatorStep true st t
    else operandStep false { st with level := { fresh := false } } t
  | .param first => paramStep first st t
  | .paramStar =>
    match t, st.frames with
    | .word _, .params isLambda _ outer :: rest =>
      some { st with frames := .params isLambda .starName outer :: rest, mode := .after }
    | _, .params isLambda _ outer :: rest =>
      separatorStep true { st with frames := .params isLambda .mark outer :: rest } t
    | _, _ => none
  | .paramDoubleStar =>
    match t, st.frames with
    | .word _, .params isLambda _ outer :: rest =>
      some { st with frames := .params isLambda .starName outer :: rest, mode := .after }
    | _, _ => none
  | .closing =>
    match t, st.frames with
    | .mark m, .bracket b :: rest =>
      if m == b.kind.closer then some (st.close b rest false) else none
    | _, _ => none
  | .fieldStart =>
    if t == .word "yield" then some { st with mode := .yielded } else operandStep true st t
  | .fieldMark conversion =>
    match t with
    | .mark m =>
      if m == "!" && conversion then some { st with mode := .fieldMark false }
      else if m == ":" then some { st with mode := .format }
      else none
    | _ => none
  | .format => none

/-! ## Reading tokens -/

/-- Whether a string literal may stand here. -/
def State.quoteAllowed (st : State) : Bool :=
  match st.mode with
  | .operand _ => true
  | .element _ => true
  | .optional => true
  | .awaited => true
  | .yielded => true
  | .isNot => true
  | .target _ => true
  | .fieldStart => true
  | .after => st.level.shape == .text
  | _ => false

/-- Whether an operand may begin here, so that numbers and three dots are read as such. -/
def State.operandAllowed (st : State) : Bool :=
  match st.mode with
  | .after => false
  | _ => st.quoteAllowed

/-- Whether a closing bracket may stand behind a complete part. -/
def State.partCloses (st : State) : Bool :=
  match st.frames with
  | .bracket b :: _ => b.closable && !st.level.needPlace
  | .params isLambda _ _ :: _ => !isLambda
  | .field _ _ :: _ => !st.level.needPlace
  | _ => false

/-- Whether a closing bracket may stand here. -/
def State.closerAllowed (st : State) : Bool :=
  match st.mode with
  | .after => st.partCloses
  | .awaited => st.partCloses
  | .element first =>
    match st.frames with
    | .bracket b :: _ =>
      match b.kind with
      | .index _ => !first
      | _ => true
    | _ => false
  | .optional =>
    match st.frames with
    | [] => false
    | _ => true
  | .yielded => true
  | .param _ => st.partCloses
  | .paramStar => st.partCloses
  | .closing => true
  | .fieldMark _ => true
  | .format => true
  | _ => false

/-- Whether the outermost expression is complete here. -/
def State.complete (st : State) (follow : Follow) : Bool :=
  st.frames.isEmpty &&
    match st.mode with
    | .after => !st.level.needPlace && (!follow.target || st.level.assignable)
    | .awaited => true
    | .optional => true
    | _ => false

/-- The token at the head of a text, with its length. -/
def token? (st : State) (cs : List Char) : Option (Token × Nat) :=
  let quoted := if st.quoteAllowed then openQuote? cs else none
  match quoted with
  | some (q, n) => some (.quote q, n)
  | none =>
    match word? cs with
    | some w => some (.word w, w.length)
    | none =>
      let digits := if st.operandAllowed then numberLength cs else 0
      if 0 < digits then some (.number, digits)
      else
        let inField := match st.frames with
          | .field _ _ :: _ => true
          | _ => false
        let conversion := match cs with
          | '!' :: c :: _ => inField && 'a' ≤ c && c ≤ 'z'
          | _ => false
        if conversion then some (.mark "!", 2)
        else
          let walrus := match st.mode with
            | .after => st.level.fresh && st.level.shape == .name
            | .awaited => st.level.fresh
            | _ => false
          match punctuation? walrus st.operandAllowed cs with
          | some m => some (.mark m, m.length)
          | none => none

/-- What one step of the recogniser does. -/
inductive Outcome where
  | stop
  | fail
  | go (st : State) (used : Nat)

/-- Goes on behind a stretch of a string literal. -/
def literal (st : State) (q : Quote) (used : Nat) (outer : Level) : QuoteEnd → Outcome
  | .closed n =>
    .go { st with mode := .after, level := { outer with shape := .text }, formatted := false }
      (used + n)
  | .field n =>
    .go { st with
      frames := .field (some q) outer :: st.frames, mode := .fieldStart, level := {},
      formatted := true } (used + n)
  | .broken => .fail

/-- The character at the head of the format of a replacement field. -/
def formatStep (st : State) (cs : List Char) : Outcome :=
  match cs, st.frames with
  | '\x7b' :: _, frames =>
    .go { st with frames := .field none st.level :: frames, mode := .fieldStart, level := {} } 1
  | '\x7d' :: rest, .field (some q) outer :: frames =>
    literal { st with frames } q 1 outer (scanQuote q 0 false 0 rest)
  | '\x7d' :: _, .field none outer :: frames =>
    .go { st with frames, mode := .format, level := outer } 1
  | _ :: _, _ => .go st 1
  | [], _ => .fail

/-- Whether a closing brace ends the innermost replacement field. -/
def closesField (st : State) : Token → Bool
  | .mark m =>
    m == "\x7d" && match st.frames with
      | .field _ _ :: _ =>
        match st.mode with
        | .after => !st.level.needPlace
        | .awaited => true
        | .optional => true
        | .yielded => true
        | .fieldMark _ => true
        | _ => false
      | _ => false
  | _ => false

/-- The comma between expressions of the outermost list. -/
def listStep (follow : Follow) (st : State) : Outcome :=
  match st.mode with
  | .optional => .fail
  | _ =>
    if follow.list then
      .go { st with
        mode := if follow.trailing then .optional else .operand (!follow.target)
        level := {}
        assignable := st.assignable && st.level.assignable
        single := false } 1
    else .fail

/-- One token of an expression in a block of indentation `current`. -/
def step (follow : Follow) (current : Nat) (st : State) (cs : List Char) : Outcome :=
  if st.mode == .format then formatStep st cs
  else if follow.bracketOnly && st.frames.isEmpty then .stop
  else
    let complete := st.complete follow
    let expected : Expected :=
      { newline := complete && follow.newline, closer := st.closerAllowed,
        string := st.quoteAllowed }
    let gap := lead expected current st.formatted cs
    match gap.layout with
    | some .newline => .stop
    | some _ => .fail
    | none =>
      let rest := cs.drop gap.skip
      match token? st rest with
      | none => .fail
      | some (.quote q, n) =>
        let allowed := match st.mode with
          | .optional => startsOptional st follow (.quote q)
          | _ => true
        if allowed then
          let st := match st.mode with
            | .awaited => st.operator false
            | .isNot => st.operator false
            | _ => st
          literal { st with formatted := q.formatted } q (gap.skip + n) st.level
            (scanQuote q 0 false 0 (rest.drop n))
        else .fail
      | some (t, n) =>
        let stops := complete && match t with
          | .word w => follow.stops.contains w
          | .mark m => follow.stops.contains m
          | _ => false
        if stops then .stop
        else if complete && t == .mark "," && follow.list then
          match listStep follow st with
          | .go next used => .go next (gap.skip + used)
          | other => other
        else if closesField st t then
          match formatStep st rest with
          | .go next used => .go next (gap.skip + used)
          | other => other
        else
          match tokenStep follow st t with
          | some next => .go next (gap.skip + n)
          | none => .fail

/-- What was read. -/
structure Reading where
  /-- Number of characters, up to the end of the last token. -/
  length : Nat
  /-- Every part could be assigned to. -/
  assignable : Bool
  /-- The whole is one bare name. -/
  isName : Bool

/-- Runs the recogniser to the end of an expression; `n` characters were read before. -/
def run (follow : Follow) (current : Nat) (st : State) (n : Nat) (cs : List Char) :
    Option Reading :=
  match step follow current st cs with
  | .stop =>
    let last := st.mode == .optional || st.level.assignable
    some {
      length := n
      assignable := st.assignable && last
      isName := st.single && st.level.plain && st.level.shape == .name }
  | .fail => none
  | .go next used =>
    if 0 < used ∧ used ≤ cs.length then run follow current next (n + used) (cs.drop used)
    else none
termination_by cs.length
decreasing_by
  simp only [List.length_drop]
  omega

end Recognizer

open Recognizer in
/-- Reads expressions from the head of a text up to what may follow them. -/
def readExpression (follow : Follow) (current : Nat) (cs : List Char) : Option Reading :=
  run follow current { mode := .operand (!follow.target) } 0 cs

open Recognizer in
/-- Reads the rest of a bracket that was just opened, its closing mark included. -/
def readBrackets (kind : BracketKind) (current : Nat) (cs : List Char) : Option Nat :=
  (run { bracketOnly := true } current
    { frames := [.bracket { kind }], mode := .element true } 0 cs).map (·.length)

open Recognizer in
/-- Reads the rest of a function's parameters, the closing parenthesis included. -/
def readParameters (current : Nat) (cs : List Char) : Option Nat :=
  (run { bracketOnly := true } current
    { frames := [.params false .name {}], mode := .param true } 0 cs).map (·.length)

open Recognizer in
/-- Reads a string literal whose opening was just read, fields included. -/
def readLiteral (q : Quote) (current : Nat) (cs : List Char) : Option Nat :=
  match literal {} q 0 {} (scanQuote q 0 false 0 cs) with
  | .go st used =>
    if st.frames.isEmpty then some used
    else (run { bracketOnly := true } current st used (cs.drop used)).map (·.length)
  | _ => none

end ImportContext.Source
