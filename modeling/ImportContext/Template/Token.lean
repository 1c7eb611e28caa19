import ImportContext.Json.Reader
import ImportContext.Template.Value

/-!
# Segments and tokens of templates

A template source is cut into text, printed expressions and tags. A hyphen inside a delimiter
removes the blanks next to it. Without one, blanks before a tag that stands first on its line are
dropped, and so is the line end behind a tag: this is the syntax of minijinja (version 1) with its
settings `lstrip_blocks` and `trim_blocks` on.

Main definitions: `TemplateToken`, `TemplateSegment`, `templateSegments?`.
-/

namespace ImportContext

/-- A lexical item of an expression or tag. -/
inductive TemplateToken where
  | word (s : String)
  | string (s : String)
  | int (n : Nat)
  | decimal (digits places : Nat)
  | mark (s : String)
deriving DecidableEq, Repr

/-- A piece of a template source. -/
inductive TemplateSegment where
  | text (s : String)
  | output (tokens : List TemplateToken)
  | tag (tokens : List TemplateToken)
deriving Repr

namespace Template

/-- What a delimiter says about the blanks next to it. -/
inductive Blanks where
  | standard
  | keep
  | remove
deriving DecidableEq, Repr

/-- The sign of a delimiter and the text behind it. -/
def readSign : List Char → Blanks × List Char
  | '-' :: rest => (.remove, rest)
  | '+' :: rest => (.keep, rest)
  | cs => (.standard, cs)

/-! ## Tokens -/

/-- The text behind an escape in a string, with its character. -/
def readStringEscape : List Char → Option (Char × List Char)
  | 'u' :: rest => JsonValue.readEscapedUnit rest
  | c :: rest =>
    if c == '\x27' then some (c, rest) else (JsonValue.simpleEscape? c).map fun d => (d, rest)
  | [] => none

/-- The rest of a string behind its opening mark; `acc` holds what was read, last first. -/
def readStringBody (quote : Char) : Nat → List Char → List Char → Option (String × List Char)
  | 0, _, _ => none
  | fuel + 1, acc, cs =>
    match cs with
    | [] => none
    | '\\' :: rest => do
      let (c, rest) ← readStringEscape rest
      readStringBody quote fuel (c :: acc) rest
    | c :: rest =>
      if c == quote then some (String.ofList acc.reverse, rest)
      else readStringBody quote fuel (c :: acc) rest

def isNameStart (c : Char) : Bool :=
  c.isAlpha || c == '_'

def isNameChar (c : Char) : Bool :=
  c.isAlphanum || c == '_'

/-- The value of decimal digits. -/
def digitsValue (ds : List Char) : Nat :=
  ds.foldl (fun n c => 10 * n + (c.toNat - 48)) 0

/-- Marks of two characters. -/
def doubleMarks : List String :=
  ["==", "!=", "<=", ">=", "//", "**"]

/-- Marks of one character. -/
def singleMarks : List Char :=
  ['<', '>', '+', '-', '*', '/', '%', '~', '|', '.', ',', ':', '=', '(', ')', '[', ']', '\x7b',
    '\x7d']

/-- One token. -/
def readToken (cs : List Char) : Option (TemplateToken × List Char) :=
  match cs with
  | [] => none
  | c :: rest =>
    if c == '"' || c == '\x27' then
      (readStringBody c (cs.length + 1) [] rest).map fun (s, rest) => (.string s, rest)
    else if c.isDigit then
      let whole := cs.takeWhile Char.isDigit
      let behind := cs.drop whole.length
      match behind with
      | '.' :: more =>
        let fraction := more.takeWhile Char.isDigit
        if fraction.isEmpty then some (.int (digitsValue whole), behind)
        else
          some (.decimal (digitsValue (whole ++ fraction)) fraction.length,
            more.drop fraction.length)
      | _ => some (.int (digitsValue whole), behind)
    else if isNameStart c then
      let name := cs.takeWhile isNameChar
      some (.word (String.ofList name), cs.drop name.length)
    else
      let two := String.ofList (cs.take 2)
      if doubleMarks.contains two then some (.mark two, cs.drop 2)
      else if singleMarks.contains c then some (.mark c.toString, rest)
      else none

/-- The end of a tag or printed expression, whose closing delimiter starts with `close`. -/
def readClose? (close : Char) (cs : List Char) : Option (Blanks × List Char) :=
  match readSign cs with
  | (sign, c :: '\x7d' :: rest) => if c == close then some (sign, rest) else none
  | _ => none

/-- The tokens up to the closing delimiter. -/
def readTokens (close : Char) :
    Nat → List Char → Option (List TemplateToken × Blanks × List Char)
  | 0, _ => none
  | fuel + 1, cs =>
    let cs := cs.dropWhile Char.isWhitespace
    match readClose? close cs with
    | some (sign, rest) => some ([], sign, rest)
    | none => do
      let (t, rest) ← readToken cs
      let (ts, sign, rest) ← readTokens close fuel rest
      some (t :: ts, sign, rest)

/-! ## Segments -/

def isLineEnd (c : Char) : Bool :=
  c == '\n' || c == '\r'

/-- The text before the next opening delimiter, and the delimiter's second character with what
follows it. -/
def splitAtDelimiter : List Char → List Char × Option (Char × List Char)
  | [] => ([], none)
  | '\x7b' :: c :: rest =>
    if c == '\x7b' || c == '%' || c == '#' then ([], some (c, rest))
    else
      let (lead, found) := splitAtDelimiter (c :: rest)
      ('\x7b' :: lead, found)
  | c :: rest =>
    let (lead, found) := splitAtDelimiter rest
    (c :: lead, found)

/-- Whether only blanks stand on the line behind some text; `before` says it of what comes
first. -/
def blankLine (before : Bool) (cs : List Char) : Bool :=
  let line := cs.reverse.takeWhile fun c => !isLineEnd c
  line.all Text.isBlank && (before || line.length < cs.length)

/-- Text without the blanks at its end that are no line ends. -/
def dropIndent (cs : List Char) : List Char :=
  Text.dropTailWhile (fun c => Text.isBlank c && !isLineEnd c) cs

/-- The text before a delimiter with its sign applied. -/
def trimLead (sign : Blanks) (isTag blank : Bool) (lead : List Char) : List Char :=
  match sign with
  | .remove => Text.dropTailWhile Text.isBlank lead
  | .standard => if isTag && blank then dropIndent lead else lead
  | .keep => lead

/-- The text behind one line end. -/
def dropLineEnd (cs : List Char) : List Char :=
  let cs := if cs.head? == some '\r' then cs.tail else cs
  if cs.head? == some '\n' then cs.tail else cs

/-- The text behind a tag with its closing sign applied; says also whether blanks are still to be
removed. -/
def trimTail (sign : Blanks) (cs : List Char) : Bool × List Char :=
  match sign with
  | .remove => (true, cs)
  | .standard => (false, dropLineEnd cs)
  | .keep => (false, cs)

/-- The text behind a word that fills a tag, with the closing sign of the tag. -/
def readWordTag? (word : String) (cs : List Char) : Option (Blanks × List Char) :=
  let cs := cs.dropWhile Char.isWhitespace
  if word.toList.isPrefixOf cs then
    readClose? '%' ((cs.drop word.length).dropWhile Char.isWhitespace)
  else none

/-- The text up to the tag that ends a raw part, the sign at its start and end, and what follows
it. -/
def readRaw : List Char → Option (List Char × Blanks × Blanks × List Char)
  | [] => none
  | c :: rest =>
    let closing := if c == '\x7b' && rest.head? == some '%' then
        let (sign, inner) := readSign rest.tail
        (readWordTag? "endraw" inner).map fun (last, behind) => ([], sign, last, behind)
      else none
    match closing with
    | some found => some found
    | none => (readRaw rest).map fun (text, more) => (c :: text, more)

/-- The text behind a comment with the sign at its end. -/
def readComment : Option Char → List Char → Option (Blanks × List Char)
  | _, [] => none
  | last, c :: rest =>
    if c == '#' && rest.head? == some '\x7d' then
      some ((readSign last.toList).1, rest.tail)
    else readComment (some c) rest

/-- A text segment, unless it is empty. -/
def textSegment (cs : List Char) : List TemplateSegment :=
  if cs.isEmpty then [] else [.text (String.ofList cs)]

/-- The segments of a source. `blank` says whether only blanks stand on the line so far, `trim`
whether blanks are to be removed here. -/
def readSegments : Nat → Bool → Bool → List Char → Option (List TemplateSegment)
  | 0, _, _, _ => none
  | fuel + 1, blank, trim, cs =>
    let blanks := if trim then cs.takeWhile Text.isBlank else []
    let cs := cs.drop blanks.length
    let blank := blankLine blank blanks
    match splitAtDelimiter cs with
    | (lead, none) => some (textSegment lead)
    | (lead, some (kind, rest)) => do
      let (sign, inner) := readSign rest
      let shown := textSegment (trimLead sign (kind != '\x7b') (blankLine blank lead) lead)
      if kind == '#' then
        let (sign, rest) ← readComment none inner
        let (trim, behind) := trimTail sign rest
        let more ← readSegments fuel (behind.length < rest.length) trim behind
        some (shown ++ more)
      else if kind == '\x7b' then
        let (tokens, sign, rest) ← readTokens '\x7d' (inner.length + 1) inner
        let more ← readSegments fuel false (sign == .remove) rest
        some (shown ++ .output tokens :: more)
      else
        match readWordTag? "raw" inner with
        | some (first, rest) =>
          let (text, before, last, rest) ← readRaw rest
          let text := match first with
            | .remove => text.dropWhile Text.isBlank
            | .standard => dropLineEnd text
            | .keep => text
          let text := match before with
            | .remove => Text.dropTailWhile Text.isBlank text
            | .standard => if blankLine true text then dropIndent text else text
            | .keep => text
          let (trim, behind) := trimTail last rest
          let more ← readSegments fuel (behind.length < rest.length) trim behind
          some (shown ++ textSegment text ++ more)
        | none =>
          let (tokens, sign, rest) ← readTokens '%' (inner.length + 1) inner
          let (trim, behind) := trimTail sign rest
          let more ← readSegments fuel (behind.length < rest.length) trim behind
          some (shown ++ .tag tokens :: more)

/-- A source without the line end at its very end. -/
def dropLastLineEnd (cs : List Char) : List Char :=
  let cs := if cs.getLast? == some '\n' then cs.dropLast else cs
  if cs.getLast? == some '\r' then cs.dropLast else cs

end Template

open Template in
/-- The segments of a template source. One line end at its end does not count. -/
def templateSegments? (source : String) : Option (List TemplateSegment) :=
  readSegments (source.length + 1) true false (dropLastLineEnd source.toList)

end ImportContext
