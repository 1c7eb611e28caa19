/-!
# Glob patterns

A pattern is read into a list of tokens. `?` stands for one byte, `*` for any run of bytes, a
class in brackets for one of some bytes, and alternatives stand in braces, which may be nested.
`**` is special only where it fills a whole component of a path. Patterns and their errors are those
of globset (version 0.4).

Main definitions: `GlobToken`, `GlobError`, `parseGlob`.
-/

namespace ImportContext

/-- A piece of a glob pattern. -/
inductive GlobToken where
  | literal (c : Char)
  /-- One byte. -/
  | any
  /-- Any number of bytes. -/
  | star
  /-- `**/` at the start: nothing, or everything up to some slash. -/
  | leadingDirs
  /-- `/**/` in the middle: one slash, or two with anything between them. -/
  | innerDirs
  /-- `/**` at the end: a slash and anything behind it. -/
  | trailingDirs
  /-- One byte of the given ranges, or one byte outside them. -/
  | oneOf (negated : Bool) (ranges : List (Char × Char))
  /-- One of several branches. -/
  | choice (branches : List (List GlobToken))
deriving Inhabited

/-- How patterns are read and matched. -/
structure GlobOptions where
  /-- `?` and `*` do not match a slash. -/
  slashIsLiteral : Bool
  /-- A bracket that is never closed stands for itself. -/
  openClassIsLiteral : Bool

/-- Why a pattern is refused. -/
inductive GlobError where
  | unclosedClass
  | invalidRange (first last : Char)
  | unopenedChoice
  | unclosedChoice
  | danglingEscape
deriving DecidableEq, Repr

/-- The wording of an error in a pattern. -/
def GlobError.message : GlobError → String
  | unclosedClass => "unclosed character class; missing ']'"
  | invalidRange first last =>
    "invalid range; '" ++ first.toString ++ "' > '" ++ last.toString ++ "'"
  | unopenedChoice =>
    "unopened alternate group; missing '\x7b' (maybe escape '\x7d' with '[\x7d]'?)"
  | unclosedChoice =>
    "unclosed alternate group; missing '\x7d' (maybe escape '\x7b' with '[\x7b]'?)"
  | danglingEscape => "dangling '\\'"

/-- The wording of an error, with the pattern it is found in. -/
def GlobError.describe (e : GlobError) (glob : String) : String :=
  "error parsing glob '" ++ glob ++ "': " ++ e.message

/-! ## Classes -/

/-- A class as far as it is read; ranges are kept last first. -/
structure ClassDraft where
  ranges : List (Char × Char) := []
  /-- A hyphen was read that may make a range. -/
  inRange : Bool := false

/-- Ends the last range at a character. -/
def ClassDraft.extend (d : ClassDraft) (c : Char) : Except GlobError ClassDraft :=
  match d.ranges with
  | (first, _) :: rest =>
    if c < first then .error (.invalidRange first c) else .ok ⟨(first, c) :: rest, false⟩
  | [] => .ok ⟨[(c, c)], false⟩

/-- Adds one character. -/
def ClassDraft.add (d : ClassDraft) (first : Bool) (c : Char) : Except GlobError ClassDraft :=
  if c == '-' && !first && !d.inRange then .ok { d with inRange := true }
  else if d.inRange then d.extend c
  else .ok ⟨(c, c) :: d.ranges, false⟩

/-- Reads a class up to its closing bracket; `none` when there is none. -/
def readClass (d : ClassDraft) (first : Bool) :
    List Char → Except GlobError (Option (List (Char × Char) × List Char))
  | [] => .ok none
  | c :: rest =>
    if c == ']' && !first then
      let ranges := if d.inRange then ('-', '-') :: d.ranges else d.ranges
      .ok (some (ranges.reverse, rest))
    else do
      readClass (← d.add first c) false rest

/-! ## Whole patterns -/

/-- An open list of alternatives: the branches that are complete (last first) and the tokens of
the one being read (last first). -/
structure GlobFrame where
  done : List (List GlobToken) := []
  current : List GlobToken := []

/-- A pattern as far as it is read: the innermost list of alternatives, those around it, and the
last character read. -/
structure GlobDraft where
  frame : GlobFrame := {}
  outer : List GlobFrame := []
  last : Option Char := none
  /-- A bracket was found that is never closed. -/
  openClass : Bool := false

namespace GlobDraft

def push (d : GlobDraft) (t : GlobToken) : GlobDraft :=
  { d with frame := { d.frame with current := t :: d.frame.current } }

def after (d : GlobDraft) (c : Char) : GlobDraft :=
  { d with last := some c }

/-- Whether braces are open. -/
def nested (d : GlobDraft) : Bool :=
  !d.outer.isEmpty

def openChoice (d : GlobDraft) : GlobDraft :=
  { d with frame := {}, outer := d.frame :: d.outer }

def nextBranch (d : GlobDraft) : GlobDraft :=
  { d with frame := { done := d.frame.current.reverse :: d.frame.done } }

def closeChoice (d : GlobDraft) : Except GlobError GlobDraft :=
  match d.outer with
  | [] => .error .unopenedChoice
  | f :: outer =>
    let branches := (d.frame.current.reverse :: d.frame.done).reverse
    .ok ({ d with frame := f, outer }.push (.choice branches))

/-- Two stars that do not fill a component. -/
def pushStars (d : GlobDraft) : GlobDraft :=
  (d.push .star).push .star

/-- Replaces the slash before `**` by a token for directories, unless that is there already. -/
def pushDirs (d : GlobDraft) (atEnd : Bool) : GlobDraft :=
  match d.frame.current with
  | .leadingDirs :: _ => d
  | .trailingDirs :: _ => d
  | _ :: rest =>
    { d with frame := { d.frame with
        current := (if atEnd then .trailingDirs else .innerDirs) :: rest } }
  | [] => d

/-- Whether a component of a path starts behind a character. Within braces a comma or an opening
brace is taken for the start of a branch, even one that stands for itself. -/
def startsComponent (d : GlobDraft) (before : Option Char) : Bool :=
  before == some '/' || (d.nested && (before == some ',' || before == some '\x7b'))

/-- Reads `**`, of which both stars are gone and `before` is the character in front. Gives the
rest, without the slash that belongs to it. -/
def doubleStar (d : GlobDraft) (before : Option Char) (rest : List Char) : GlobDraft × List Char :=
  let d := d.after '*'
  if d.frame.current.isEmpty then
    match rest with
    | [] => (d.push .leadingDirs, [])
    | '/' :: rest => ((d.push .leadingDirs).after '/', rest)
    | _ => (d.pushStars, rest)
  else if !d.startsComponent before then (d.pushStars, rest)
  else
    match rest with
    | [] => (d.pushDirs true, [])
    | '/' :: rest => ((d.pushDirs false).after '/', rest)
    | c :: _ =>
      if (c == ',' || c == '\x7d') && d.nested then (d.pushDirs true, rest)
      else (d.pushStars, rest)

end GlobDraft

/-- Reads the rest of a pattern. Every step takes at least one character, so `fuel` above the
length is enough. -/
def readGlob (o : GlobOptions) : Nat → GlobDraft → List Char → Except GlobError GlobDraft
  | 0, d, _ => .ok d
  | fuel + 1, d, cs =>
    match cs with
    | [] => .ok d
    | '?' :: rest => readGlob o fuel ((d.push .any).after '?') rest
    | '*' :: '*' :: rest =>
      let (d, rest) := d.doubleStar d.last rest
      readGlob o fuel d rest
    | '*' :: rest => readGlob o fuel ((d.push .star).after '*') rest
    | '[' :: rest =>
      if d.openClass then readGlob o fuel ((d.push (.literal '[')).after '[') rest
      else
        let negated := rest.head? == some '!' || rest.head? == some '^'
        match readClass {} true (if negated then rest.tail else rest) with
        | .error e => .error e
        | .ok (some (ranges, rest)) =>
          readGlob o fuel ((d.push (.oneOf negated ranges)).after ']') rest
        | .ok none =>
          if o.openClassIsLiteral then
            readGlob o fuel { (d.push (.literal '[')).after '[' with openClass := true } rest
          else .error .unclosedClass
    | '\x7b' :: rest => readGlob o fuel (d.openChoice.after '\x7b') rest
    | '\x7d' :: rest => do readGlob o fuel ((← d.closeChoice).after '\x7d') rest
    | ',' :: rest =>
      let d := if d.nested then d.nextBranch else d.push (.literal ',')
      readGlob o fuel (d.after ',') rest
    | ['\\'] => .error .danglingEscape
    | '\\' :: c :: rest => readGlob o fuel ((d.push (.literal c)).after c) rest
    | c :: rest => readGlob o fuel ((d.push (.literal c)).after c) rest

/-- The tokens of a pattern. -/
def parseGlob (o : GlobOptions) (glob : String) : Except GlobError (List GlobToken) := do
  let d ← readGlob o (glob.length + 1) {} glob.toList
  if d.nested then .error .unclosedChoice else .ok d.frame.current.reverse

end ImportContext
