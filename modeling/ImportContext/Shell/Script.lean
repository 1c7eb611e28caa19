import ImportContext.Text.Blank

/-!
# Shell scripts

The part of the POSIX shell language that probe programs are written in: simple commands with
quotation, parameters, assignments, redirections of the two output streams and texts given in
place, put one after the other or joined by `&&` and `||`.

Main definitions: `Shell.Command`, `Shell.parseScript`.
-/

namespace ImportContext.Shell

/-- A part of a word. -/
inductive Piece where
  | literal (c : Char)
  /-- The value of a parameter, or another text when it has none. Outside quotation marks it is
  split at blanks. -/
  | parameter (name fallback : String) (quoted : Bool)
  /-- A pair of quotation marks, which makes a word of its own even around nothing. -/
  | quotation
deriving DecidableEq, Repr

/-- How a command hangs on the one before it. -/
inductive Connector where
  | always
  | onSuccess
  | onFailure
deriving DecidableEq, Repr

/-- Where the text that a command writes goes. -/
inductive Sink where
  | output
  | errors
  | nowhere
deriving DecidableEq, Repr

/-- A change of the place that a stream goes to. -/
inductive Redirection where
  /-- The output goes where the errors go. -/
  | outputToErrors
  /-- The errors go where the output goes. -/
  | errorsToOutput
  | discardOutput
  | discardErrors
deriving DecidableEq, Repr

/-- A simple command. -/
structure Command where
  connector : Connector := .always
  /-- The line on which the command stands. -/
  line : Nat := 1
  /-- The status is turned round. -/
  negated : Bool := false
  assignments : List (String × List Piece) := []
  words : List (List Piece) := []
  output : Sink := .output
  errors : Sink := .errors
  /-- The text that the command reads. -/
  input : Option (List Piece) := none
deriving Repr

/-- A lexical item of a script. -/
inductive Item where
  | word (pieces : List Piece)
  | redirect (r : Redirection)
  | document (pieces : List Piece)
  | separator (connector : Connector) (newline : Bool)
deriving Repr

/-! ## Words -/

def isNameChar (c : Char) : Bool :=
  c.isAlphanum || c == '_'

/-- A parameter and its fallback, as written between braces. -/
def splitFallback (cs : List Char) : String × String :=
  let name := cs.takeWhile (· != ':')
  (String.ofList name, String.ofList ((cs.drop name.length).drop 2))

/-- The parameter behind a dollar sign: a digit, a special mark, a name, or a name in braces. -/
def readParameter : List Char → Option ((String × String) × List Char)
  | '\x7b' :: rest =>
    let body := rest.takeWhile (· != '\x7d')
    some (splitFallback body, rest.drop (body.length + 1))
  | c :: rest =>
    if c.isDigit || c == '#' || c == '$' || c == '?' || c == '@' || c == '*' then
      some ((c.toString, ""), rest)
    else
      let name := (c :: rest).takeWhile isNameChar
      if name.isEmpty then none
      else some ((String.ofList name, ""), (c :: rest).drop name.length)
  | [] => none

/-- The pieces up to a closing double quotation mark. -/
def readDouble : Nat → List Char → List Piece × List Char
  | 0, cs => ([], cs)
  | fuel + 1, cs =>
    match cs with
    | [] => ([], [])
    | '"' :: rest => ([], rest)
    | '\\' :: c :: rest =>
      let (ps, rest') := readDouble fuel rest
      if c == '"' || c == '\\' || c == '$' || c.toNat == 96 then (.literal c :: ps, rest')
      else if c == '\n' then (ps, rest')
      else (.literal '\\' :: .literal c :: ps, rest')
    | '$' :: rest =>
      match readParameter rest with
      | some ((name, fallback), rest) =>
        let (ps, rest) := readDouble fuel rest
        (.parameter name fallback true :: ps, rest)
      | none =>
        let (ps, rest) := readDouble fuel rest
        (.literal '$' :: ps, rest)
    | c :: rest =>
      let (ps, rest) := readDouble fuel rest
      (.literal c :: ps, rest)

/-- The pieces of a text in which quotation marks have no meaning. -/
def readDocument : Nat → List Char → List Piece
  | 0, _ => []
  | fuel + 1, cs =>
    match cs with
    | [] => []
    | '\\' :: c :: rest =>
      if c == '\\' || c == '$' || c.toNat == 96 then .literal c :: readDocument fuel rest
      else if c == '\n' then readDocument fuel rest
      else .literal '\\' :: .literal c :: readDocument fuel rest
    | '$' :: rest =>
      match readParameter rest with
      | some ((name, fallback), rest) => .parameter name fallback true :: readDocument fuel rest
      | none => .literal '$' :: readDocument fuel rest
    | c :: rest => .literal c :: readDocument fuel rest

/-- Whether a character ends a word that stands outside quotation marks. -/
def endsWord (c : Char) : Bool :=
  c == ' ' || c == '\t' || c == '\n' || c == ';' || c == '&' || c == '|' || c == '>' || c == '<'

/-- The pieces of one word. -/
def readWord : Nat → List Char → List Piece × List Char
  | 0, cs => ([], cs)
  | fuel + 1, cs =>
    match cs with
    | [] => ([], [])
    | '\x27' :: rest =>
      let body := rest.takeWhile (· != '\x27')
      let (ps, rest) := readWord fuel (rest.drop (body.length + 1))
      (.quotation :: body.map .literal ++ ps, rest)
    | '"' :: rest =>
      let (inner, rest) := readDouble (rest.length + 1) rest
      let (ps, rest) := readWord fuel rest
      (.quotation :: inner ++ ps, rest)
    | '\\' :: c :: rest =>
      let (ps, rest) := readWord fuel rest
      (if c == '\n' then ps else .literal c :: ps, rest)
    | '$' :: rest =>
      match readParameter rest with
      | some ((name, fallback), rest) =>
        let (ps, rest) := readWord fuel rest
        (.parameter name fallback false :: ps, rest)
      | none =>
        let (ps, rest) := readWord fuel rest
        (.literal '$' :: ps, rest)
    | c :: rest =>
      if endsWord c then ([], cs)
      else
        let (ps, rest) := readWord fuel rest
        (.literal c :: ps, rest)

/-- The text of a word without parameters. -/
def literalText (pieces : List Piece) : String :=
  String.ofList (pieces.filterMap fun
    | .literal c => some c
    | _ => none)

/-! ## Items -/

/-- The lines before the one that equals `mark`, and what follows it. -/
def takeLinesUntil (mark : List Char) : List (List Char) → List (List Char) × List (List Char)
  | [] => ([], [])
  | line :: rest =>
    if line == mark then ([], rest)
    else
      let (body, behind) := takeLinesUntil mark rest
      (line :: body, behind)

/-- A text given in place behind the word `mark`: its pieces, and the script without it. The text
starts on the next line. -/
def cutDocument (mark : List Piece) (cs : List Char) : List Piece × List Char :=
  let line := cs.takeWhile (· != '\n')
  let lines := ((cs.drop line.length).drop 1).splitOn '\n'
  let (body, behind) := takeLinesUntil (literalText mark).toList lines
  let text := body.flatMap (· ++ ['\n'])
  let pieces := if mark.contains .quotation then text.map .literal
    else readDocument (text.length + 1) text
  (pieces, line ++ '\n' :: ['\n'].intercalate behind)

/-- The redirection that a script starts with, and what follows it. -/
def readRedirection? (cs : List Char) : Option (Redirection × List Char) :=
  let forms : List (String × Redirection) :=
    [("2>&1", .errorsToOutput), (">&2", .outputToErrors), ("1>&2", .outputToErrors),
      ("2>/dev/null", .discardErrors), ("2> /dev/null", .discardErrors),
      (">/dev/null", .discardOutput), ("> /dev/null", .discardOutput),
      ("1>/dev/null", .discardOutput)]
  (forms.find? fun (form, _) => form.toList.isPrefixOf cs).map fun (form, r) =>
    (r, cs.drop form.length)

/-- The lexical items of a script. -/
def readItems : Nat → List Char → List Item
  | 0, _ => []
  | fuel + 1, cs =>
    match readRedirection? cs with
    | some (r, rest) => .redirect r :: readItems fuel rest
    | none =>
      match cs with
      | [] => []
      | '\n' :: rest => .separator .always true :: readItems fuel rest
      | ';' :: rest => .separator .always false :: readItems fuel rest
      | '&' :: '&' :: rest => .separator .onSuccess false :: readItems fuel rest
      | '|' :: '|' :: rest => .separator .onFailure false :: readItems fuel rest
      | '<' :: '<' :: rest =>
        let (mark, rest) := readWord (rest.length + 1) (rest.dropWhile (· == ' '))
        let (pieces, rest) := cutDocument mark rest
        .document pieces :: readItems fuel rest
      | '#' :: rest => readItems fuel (rest.dropWhile (· != '\n'))
      | c :: rest =>
        if endsWord c then readItems fuel rest
        else
          let (ps, rest) := readWord (cs.length + 1) cs
          .word ps :: readItems fuel rest

/-! ## Commands -/

/-- The name and value of a word that is an assignment. -/
def assignment? (pieces : List Piece) : Option (String × List Piece) :=
  let name := pieces.takeWhile fun
    | .literal c => isNameChar c
    | _ => false
  match name, pieces.drop name.length with
  | .literal c :: _, .literal '=' :: value =>
    if c.isDigit then none else some (literalText name, value)
  | _, _ => none

/-- The command with a stream going elsewhere. -/
def Command.redirect (c : Command) : Redirection → Command
  | .outputToErrors => { c with output := c.errors }
  | .errorsToOutput => { c with errors := c.output }
  | .discardOutput => { c with output := .nowhere }
  | .discardErrors => { c with errors := .nowhere }

/-- The command with one word more. -/
def Command.addWord (c : Command) (pieces : List Piece) : Command :=
  if c.words.isEmpty then
    if c.assignments.isEmpty && pieces == [.literal '!'] then { c with negated := true }
    else
      match assignment? pieces with
      | some a => { c with assignments := c.assignments ++ [a] }
      | none => { c with words := [pieces] }
  else { c with words := c.words ++ [pieces] }

/-- One item added to the commands read so far (last first) and the one being put together. -/
def addItem (st : List Command × Command) : Item → List Command × Command
  | .word ps => (st.1, st.2.addWord ps)
  | .redirect r => (st.1, st.2.redirect r)
  | .document ps => (st.1, { st.2 with input := some ps })
  | .separator connector newline =>
    let line := if newline then st.2.line + 1 else st.2.line
    if st.2.words.isEmpty && st.2.assignments.isEmpty then (st.1, { st.2 with line })
    else (st.2 :: st.1, { connector, line })

/-- The commands of a script. -/
def parseScript (text : String) : List Command :=
  let items := readItems (text.length + 1) text.toList ++ [.separator .always true]
  (items.foldl addItem ([], {})).1.reverse

end ImportContext.Shell
