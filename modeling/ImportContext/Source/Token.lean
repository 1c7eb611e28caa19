import ImportContext.Source.Character
import ImportContext.Source.Layout

/-!
# Tokens

Words, numbers, string openings and punctuation, each read as a number of characters. Which
words are keywords is decided where the token is used: a word that cannot be a keyword at its
place is a name. The tokens are those of the tree-sitter grammar for Python (version 0.21), which
also reads the `l` behind a number and the strings in backquotes of old programs.

Main definitions: `wordLength`, `numberLength`, `openQuote?`, `punctuation?`, `lead`.
-/

namespace ImportContext.Source

/-- The gap before the next token of `cs`. -/
def lead (e : Expected) (current : Nat) (formatted : Bool) (cs : List Char) : Lead :=
  let ask := e.layout current formatted
  match ask cs with
  | some l => ⟨0, some l⟩
  | none => leadFrom isSpace ask false cs 0

/-- The length of the word at the head of a text; zero when there is none. -/
def wordLength : List Char → Nat
  | c :: rest => if isWordStart c then (rest.takeWhile isWordPart).length + 1 else 0
  | [] => 0

/-- The word at the head of a text. -/
def word? (cs : List Char) : Option String :=
  match wordLength cs with
  | 0 => none
  | n => some (String.ofList (cs.take n))

/-! ## Numbers -/

/-- Length of a run of digits, each group followed by at most one underscore. -/
def digitRun : List Char → Nat
  | c :: '_' :: rest => if c.isDigit then digitRun rest + 2 else 0
  | c :: rest => if c.isDigit then digitRun rest + 1 else 0
  | [] => 0

/-- Length of groups of digits of another base, each group preceded by at most one underscore. -/
def basedRun (isDigit : Char → Bool) : List Char → Nat
  | '_' :: c :: rest => if isDigit c then basedRun isDigit rest + 2 else 0
  | c :: rest => if isDigit c then basedRun isDigit rest + 1 else 0
  | [] => 0

/-- One more character when the text at `n` has one of `marks`. -/
def withMark (marks : List Char) (cs : List Char) (n : Nat) : Nat :=
  match cs.drop n with
  | c :: _ => if marks.contains c then n + 1 else n
  | [] => n

def isHexDigit (c : Char) : Bool :=
  c.isDigit || ('a' ≤ c && c ≤ 'f') || ('A' ≤ c && c ≤ 'F')

/-- Length of the integer at the head of a text. -/
def integerLength (cs : List Char) : Nat :=
  let based (isDigit : Char → Bool) (rest : List Char) : Nat :=
    match basedRun isDigit rest with
    | 0 => 1
    | n => withMark ['l', 'L'] cs (n + 2)
  match cs with
  | '0' :: c :: rest =>
    if c == 'x' || c == 'X' then based isHexDigit rest
    else if c == 'o' || c == 'O' then based (fun d => '0' ≤ d && d ≤ '7') rest
    else if c == 'b' || c == 'B' then based (fun d => d == '0' || d == '1') rest
    else withMark ['l', 'L', 'j', 'J'] cs (digitRun cs)
  | _ =>
    match digitRun cs with
    | 0 => 0
    | n => withMark ['l', 'L', 'j', 'J'] cs n

/-- Length of an exponent, zero when there is none. -/
def exponentLength : List Char → Nat
  | e :: rest =>
    if e == 'e' || e == 'E' then
      match rest with
      | s :: digits =>
        if s == '+' || s == '-' then
          match digitRun digits with
          | 0 => 0
          | n => n + 2
        else
          match digitRun rest with
          | 0 => 0
          | n => n + 1
      | [] => 0
    else 0
  | [] => 0

/-- Length of the number with a point or an exponent at the head of a text. -/
def floatLength (cs : List Char) : Nat :=
  let whole := digitRun cs
  let finish (n : Nat) : Nat := withMark ['l', 'L', 'j', 'J'] cs (n + exponentLength (cs.drop n))
  match cs.drop whole with
  | '.' :: rest =>
    let fraction := digitRun rest
    if whole == 0 && fraction == 0 then 0 else finish (whole + 1 + fraction)
  | rest =>
    if whole == 0 then 0
    else
      match exponentLength rest with
      | 0 => 0
      | n => withMark ['l', 'L', 'j', 'J'] cs (whole + n)

/-- Length of the number at the head of a text; zero when there is none. -/
def numberLength (cs : List Char) : Nat :=
  max (integerLength cs) (floatLength cs)

/-! ## Strings -/

/-- How a string literal is delimited and read. -/
structure Quote where
  mark : Char
  triple : Bool := false
  raw : Bool := false
  formatted : Bool := false
deriving DecidableEq, Repr

/-- Letters that may stand before a quotation mark. -/
def isQuoteLetter (c : Char) : Bool :=
  "fFrRbBuU".toList.contains c

/-- The opening of a string literal at the head of a text, with its length. -/
def openQuote? (cs : List Char) : Option (Quote × Nat) :=
  let letters := cs.takeWhile isQuoteLetter
  let raw := letters.any fun c => c == 'r' || c == 'R'
  let formatted := letters.any fun c => c == 'f' || c == 'F'
  match cs.drop letters.length with
  | '\x60' :: _ => some (⟨'\x60', false, raw, formatted⟩, letters.length + 1)
  | q :: rest =>
    if q == '"' || q == '\'' then
      if rest.take 2 == [q, q] then some (⟨q, true, raw, formatted⟩, letters.length + 3)
      else some (⟨q, false, raw, formatted⟩, letters.length + 1)
    else none
  | [] => none

/-- Where the text of a string literal stops. -/
inductive QuoteEnd where
  /-- The closing marks end after that many characters. -/
  | closed (n : Nat)
  /-- A replacement field opens; its brace is the last of that many characters. -/
  | field (n : Nat)
  /-- The literal is not closed. -/
  | broken
deriving DecidableEq, Repr

/-- Length of a named character such as the part in braces of `\N\x7b…\x7d`, braces included. -/
def namedLength : List Char → Nat
  | '\x7b' :: rest =>
    let name := rest.takeWhile (· != '\x7d')
    if name.isEmpty then 0
    else if (rest.drop name.length).head? == some '\x7d' then name.length + 2
    else 0
  | _ => 0

/-- Reads the text of a literal to its end or to the next replacement field. `content` is true
when a character was read since the last escape or field; a line end may stand in a literal of
single marks only where it is not. `n` counts the characters read, and `skip` the characters
still to be passed unread. -/
def scanQuote (q : Quote) : Nat → Bool → Nat → List Char → QuoteEnd
  | _, _, _, [] => .broken
  | skip + 1, content, n, _ :: rest => scanQuote q skip content (n + 1) rest
  | 0, content, n, c :: rest =>
    if q.formatted && (c == '\x7b' || c == '\x7d') then
      if rest.head? == some c then scanQuote q 1 false (n + 1) rest
      else if c == '\x7b' then .field (n + 1)
      else .broken
    else if c == '\\' then
      match rest with
      | [] => .broken
      | d :: more =>
        if q.raw then
          if d == q.mark || d == '\\' then
            scanQuote q (if more.head? == some '\n' then 2 else 1) content (n + 1) rest
          else scanQuote q (if d == '\n' then 1 else 0) content (n + 1) rest
        else if d == '"' || d == '\'' || d == '\\' || d == '\n' then
          scanQuote q 1 false (n + 1) rest
        else if d == 'N' then scanQuote q (1 + namedLength more) false (n + 1) rest
        else scanQuote q 0 false (n + 1) rest
    else if c == q.mark then
      if q.triple then
        if rest.take 2 == [c, c] then .closed (n + 3)
        else scanQuote q 0 false (n + 1) rest
      else .closed (n + 1)
    else if c == '\n' && content && !q.triple then .broken
    else scanQuote q 0 true (n + 1) rest

/-! ## Punctuation -/

/-- Punctuation of three, two and one characters that is read wherever it stands. -/
def punctuationMarks : List String :=
  ["**=", "//=", ">>=", "<<=", "**", "//", ">>", "<<", "<=", ">=", "==", "!=", "<>", "->", "+=",
    "-=", "*=", "/=", "%=", "@=", "&=", "|=", "^=", "(", ")", "[", "]", "\x7b", "\x7d", ",", ":",
    ";", ".", "+", "-", "*", "/", "%", "@", "&", "|", "^", "~", "<", ">", "="]

/-- The punctuation at the head of a text; `:=` is one mark only if `walrus`, and three dots only
if `dots`. -/
def punctuation? (walrus dots : Bool) (cs : List Char) : Option String :=
  if dots && cs.take 3 == ['.', '.', '.'] then some "..."
  else if walrus && cs.take 2 == [':', '='] then some ":="
  else punctuationMarks.find? fun mark => mark.toList.isPrefixOf cs

end ImportContext.Source
