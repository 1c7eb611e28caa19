import ImportContext.Source.Expression

/-!
# Patterns of `case` clauses

Patterns are recognised like expressions, by an automaton over tokens with a stack of open
brackets. A reading is the number of characters of the patterns before the guard or the colon. The
patterns are those of the tree-sitter grammar for Python (version 0.21).

Main definition: `readPatterns`.
-/

namespace ImportContext.Source

namespace CasePattern

open Recognizer (Token Outcome)

inductive Frame where
  | tuple
  | list
  | arguments
  /-- A mapping; `value` behind the colon of an entry. -/
  | mapping (value : Bool)
deriving DecidableEq, Repr

inductive Mode where
  /-- A pattern must follow. -/
  | pattern
  /-- A pattern or the end of the list. -/
  | element
  | number
  | starName
  | attribute
  | binding
  /-- Behind a name without dots, which may become a keyword pattern. -/
  | name
  /-- Behind a dotted name. -/
  | path
  | text
  | digits
  | done
  /-- Behind `as`, where no alternative may follow. -/
  | named
  /-- Behind a starred name. -/
  | starred
deriving DecidableEq, Repr

structure State where
  frames : List Frame := []
  mode : Mode := .pattern

def Frame.closer : Frame → String
  | .tuple => ")"
  | .arguments => ")"
  | .list => "]"
  | .mapping _ => "\x7d"

/-- The beginning of a pattern. -/
def startStep (st : State) : Token → Option State
  | .word w =>
    if w == "True" || w == "False" || w == "None" || w == "_" then some { st with mode := .done }
    else some { st with mode := .name }
  | .number => some { st with mode := .digits }
  | .quote _ => none
  | .mark m =>
    if m == "-" then some { st with mode := .number }
    else if m == "*" || m == "**" then some { st with mode := .starName }
    else if m == "(" then some ⟨.tuple :: st.frames, .element⟩
    else if m == "[" then some ⟨.list :: st.frames, .element⟩
    else if m == "\x7b" then some ⟨.mapping false :: st.frames, .element⟩
    else none

/-- A comma, colon or closing mark behind a pattern. -/
def separatorStep (st : State) (m : String) : Option State :=
  match st.frames with
  | [] => if m == "," then some { st with mode := .element } else none
  | f :: rest =>
    let open? := f == .mapping false && st.mode != .starred && st.mode != .element
    if m == f.closer then if open? then none else some ⟨rest, .done⟩
    else if m == "," then
      if open? then none
      else
        match f with
        | .mapping _ => some ⟨.mapping false :: rest, .element⟩
        | _ => some { st with mode := .element }
    else if m == ":" then
      if f == .mapping false then some ⟨.mapping true :: rest, .pattern⟩ else none
    else none

/-- The token behind a pattern. -/
def afterStep (st : State) : Token → Option State
  | .word w => if w == "as" && st.mode != .starred then some { st with mode := .binding } else none
  | .mark m =>
    let dotted := st.mode == .name || st.mode == .path
    if m == "." && dotted then some { st with mode := .attribute }
    else if m == "(" && dotted then some ⟨.arguments :: st.frames, .element⟩
    else if m == "=" && st.mode == .name then some { st with mode := .pattern }
    else if m == "|" && st.mode != .named then some { st with mode := .pattern }
    else if (m == "+" || m == "-") && st.mode == .digits then some { st with mode := .number }
    else separatorStep st m
  | _ => none

/-- One token applied to a state; string literals are applied by `step`. -/
def tokenStep (st : State) (t : Token) : Option State :=
  match st.mode with
  | .pattern => startStep st t
  | .element =>
    match startStep st t, t with
    | some next, _ => some next
    | none, .mark m =>
      match st.frames with
      | f :: rest => if m == f.closer then some ⟨rest, .done⟩ else none
      | [] => none
    | none, _ => none
  | .number => if t == .number then some { st with mode := .digits } else none
  | .starName =>
    match t with
    | .word _ => some { st with mode := .starred }
    | _ => none
  | .attribute =>
    match t with
    | .word _ => some { st with mode := .path }
    | _ => none
  | .binding =>
    match t with
    | .word _ => some { st with mode := .named }
    | _ => none
  | _ => afterStep st t

def State.startAllowed (st : State) : Bool :=
  st.mode == .pattern || st.mode == .element

def State.complete (st : State) : Bool :=
  match st.mode with
  | .pattern => false
  | .number => false
  | .starName => false
  | .attribute => false
  | .binding => false
  | _ => true

/-- What a step does with the state. -/
inductive Move where
  | stop
  | fail
  | go (st : State) (used : Nat)

/-- One token of a pattern in a block of indentation `current`. -/
def step (current : Nat) (st : State) (cs : List Char) : Move :=
  let quotes := st.startAllowed || st.mode == .text
  let gap := lead { closer := st.complete && !st.frames.isEmpty, string := quotes } current false cs
  match gap.layout with
  | some _ => .fail
  | none =>
    let rest := cs.drop gap.skip
    match if quotes then openQuote? rest else none with
    | some (q, n) =>
      match readLiteral q current (rest.drop n) with
      | some used => .go { st with mode := .text } (gap.skip + n + used)
      | none => .fail
    | none =>
      match word? rest with
      | some w =>
        if w == "if" && st.complete && st.frames.isEmpty then .stop
        else
          match tokenStep st (.word w) with
          | some next => .go next (gap.skip + w.length)
          | none => .fail
      | none =>
        let digits :=
          if st.startAllowed || st.mode == .number then numberLength rest else 0
        if 0 < digits then
          match tokenStep st .number with
          | some next => .go next (gap.skip + digits)
          | none => .fail
        else
          match punctuation? false false rest with
          | none => .fail
          | some m =>
            if m == ":" && st.complete && st.frames.isEmpty then .stop
            else
              match tokenStep st (.mark m) with
              | some next => .go next (gap.skip + m.length)
              | none => .fail

/-- Runs to the guard or the colon; `n` characters were read before. -/
def run (current : Nat) (st : State) (n : Nat) (cs : List Char) : Option Nat :=
  match step current st cs with
  | .stop => some n
  | .fail => none
  | .go next used =>
    if 0 < used ∧ used ≤ cs.length then run current next (n + used) (cs.drop used) else none
termination_by cs.length
decreasing_by
  simp only [List.length_drop]
  omega

end CasePattern

/-- Reads the patterns of a `case` clause up to its guard or colon. -/
def readPatterns (current : Nat) (cs : List Char) : Option Nat :=
  CasePattern.run current {} 0 cs

end ImportContext.Source
