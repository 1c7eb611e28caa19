import ImportContext.Toml.Scalar

/-!
# TOML documents

A document is a list of lines: assignments and headers that open a table. Tables may be opened
once, by a header, by dotted keys, or implicitly as the parent of another; the last kind may still
get a header of its own. The format is TOML 1.0.

Main definitions: `Toml.Line`, `Toml.readLines`, `parseToml?`.
-/

namespace ImportContext.Toml

/-! ## Values and keys -/

def isBareKeyChar (c : Char) : Bool :=
  c.isAlphanum || c == '_' || c == '-'

/-- One part of a dotted key. -/
def readKeyPart (cs : List Char) : Option (String × List Char) :=
  match cs with
  | '"' :: rest => readBasic (cs.length + 1) [] rest
  | '\x27' :: rest => readLiteral [] rest
  | _ =>
    let name := cs.takeWhile isBareKeyChar
    if name.isEmpty then none else some (String.ofList name, cs.drop name.length)

/-- A dotted key, with the blanks behind it. -/
def readKey : Nat → List Char → Option (List String × List Char)
  | 0, _ => none
  | fuel + 1, cs => do
    let (part, rest) ← readKeyPart (skipBlank cs)
    match skipBlank rest with
    | '.' :: rest => (readKey fuel rest).map fun (parts, rest) => (part :: parts, rest)
    | rest => some ([part], rest)

/-- Blanks, comments and line ends. -/
def skipLayout : Nat → List Char → List Char
  | 0, cs => cs
  | fuel + 1, cs =>
    let rest := skipComment (skipBlank cs)
    match lineEnd? rest with
    | some rest => skipLayout fuel rest
    | none => rest

/-- How a table came to be. -/
inductive Origin where
  | header
  | dotted
  | implied
deriving DecidableEq, Repr

/-- A place of a document: a finished value, a table, or tables of one name. -/
inductive Node where
  | value (v : TomlValue)
  | table (origin : Origin) (entries : List (String × Node))
  | tables (elements : List (List (String × Node)))
deriving Inhabited

abbrev Entries := List (String × Node)

/-- The entries with the one of the given name replaced. -/
def replaceEntry (entries : Entries) (name : String) (node : Node) : Entries :=
  entries.map fun (n, old) => if n == name then (n, node) else (n, old)

/-- Applies a change to the last list of entries. -/
def changeLast (f : Entries → Option Entries) (elements : List Entries) : Option (List Entries) :=
  match elements.getLast? with
  | some last => (f last).map fun new => elements.dropLast ++ [new]
  | none => none

/-- Puts a value under a dotted key. Only tables that dotted keys opened can be extended; `open?`
says whether these entries can. -/
def assign (v : TomlValue) : Bool → List String → Entries → Option Entries
  | _, [], _ => none
  | open?, [key], entries =>
    if open? && !entries.any (·.1 == key) then some (entries ++ [(key, .value v)]) else none
  | _, key :: rest, entries =>
    match entries.lookup key with
    | none => (assign v true rest []).map fun sub => entries ++ [(key, .table .dotted sub)]
    | some (.value _) => none
    | some (.table .header _) => none
    | some (.table origin sub) =>
      (assign v (origin == .dotted) rest sub).map fun sub =>
        replaceEntry entries key (.table origin sub)
    | some (.tables elements) =>
      (changeLast (assign v false rest) elements).map fun es =>
        replaceEntry entries key (.tables es)

mutual

/-- The value of a place. -/
def nodeValue : Node → TomlValue
  | .value v => v
  | .table _ entries => .table (entryValues entries)
  | .tables elements => .array (elementValues elements)

/-- The values of entries. -/
def entryValues : List (String × Node) → List (String × TomlValue)
  | [] => []
  | (name, node) :: rest => (name, nodeValue node) :: entryValues rest

/-- The values of tables of one name. -/
def elementValues : List (List (String × Node)) → List TomlValue
  | [] => []
  | entries :: rest => .table (entryValues entries) :: elementValues rest

end

mutual

/-- A value at the head of a text; `fuel` bounds the nesting and the length of lists. -/
def readValue : Nat → List Char → Option (TomlValue × List Char)
  | 0, _ => none
  | fuel + 1, cs =>
    match cs with
    | '[' :: rest => (readItems fuel rest).map fun (vs, rest) => (.array vs, rest)
    | '\x7b' :: rest =>
      match skipBlank rest with
      | '\x7d' :: rest => some (.table [], rest)
      | rest => (readInline fuel [] rest).map fun (es, rest) => (.table (entryValues es), rest)
    | _ => readScalar cs

/-- Items up to the closing bracket, over any number of lines. -/
def readItems : Nat → List Char → Option (List TomlValue × List Char)
  | 0, _ => none
  | fuel + 1, cs =>
    match skipLayout (cs.length + 1) cs with
    | ']' :: rest => some ([], rest)
    | rest => do
      let (v, rest) ← readValue fuel rest
      match skipLayout (rest.length + 1) rest with
      | ',' :: rest => (readItems fuel rest).map fun (vs, rest) => (v :: vs, rest)
      | ']' :: rest => some ([v], rest)
      | _ => none

/-- Assignments up to the closing brace, on one line. -/
def readInline : Nat → Entries → List Char → Option (Entries × List Char)
  | 0, _, _ => none
  | fuel + 1, entries, cs => do
    let (key, rest) ← readKey (cs.length + 1) cs
    let rest ← expect? '=' rest
    let (v, rest) ← readValue fuel (skipBlank rest)
    let entries ← assign v true key entries
    match skipBlank rest with
    | ',' :: rest => readInline fuel entries rest
    | '\x7d' :: rest => some (entries, rest)
    | _ => none

end

/-! ## Lines -/

/-- A line of a document. -/
inductive Line where
  | assignment (key : List String) (v : TomlValue)
  | header (key : List String)
  | arrayHeader (key : List String)

/-- The text behind the end of a line, on which only a comment may follow. -/
def finishLine (cs : List Char) : Option (List Char) :=
  match skipComment (skipBlank cs) with
  | [] => some []
  | rest => lineEnd? rest

/-- One line that is not blank. -/
def readLine (cs : List Char) : Option (Line × List Char) :=
  let fuel := cs.length + 1
  match cs with
  | '[' :: '[' :: rest => do
    let (key, rest) ← readKey fuel rest
    let rest ← expect? ']' (← expect? ']' rest)
    some (.arrayHeader key, rest)
  | '[' :: rest => do
    let (key, rest) ← readKey fuel rest
    some (.header key, ← expect? ']' rest)
  | _ => do
    let (key, rest) ← readKey fuel cs
    let (v, rest) ← readValue fuel (skipBlank (← expect? '=' rest))
    some (.assignment key v, rest)

/-- The lines of a document. -/
def readLines : Nat → List Char → Option (List Line)
  | 0, _ => none
  | fuel + 1, cs =>
    match skipLayout (cs.length + 1) cs with
    | [] => some []
    | rest => do
      let (line, rest) ← readLine rest
      (readLines fuel (← finishLine rest)).map (line :: ·)

/-! ## Building the document -/

/-- Applies a change where a header leads, opening tables on the way. -/
def changeAt (f : String → Entries → Option Entries) : List String → Entries → Option Entries
  | [], _ => none
  | [key], entries => f key entries
  | key :: rest, entries =>
    match entries.lookup key with
    | none => (changeAt f rest []).map fun sub => entries ++ [(key, .table .implied sub)]
    | some (.value _) => none
    | some (.table origin sub) =>
      (changeAt f rest sub).map fun sub => replaceEntry entries key (.table origin sub)
    | some (.tables elements) =>
      (changeLast (changeAt f rest) elements).map fun es =>
        replaceEntry entries key (.tables es)

/-- Opens a table by a header. -/
def openTable (key : String) (entries : Entries) : Option Entries :=
  match entries.lookup key with
  | none => some (entries ++ [(key, .table .header [])])
  | some (.table .implied sub) => some (replaceEntry entries key (.table .header sub))
  | some _ => none

/-- Opens a further table of one name. -/
def openElement (key : String) (entries : Entries) : Option Entries :=
  match entries.lookup key with
  | none => some (entries ++ [(key, .tables [[]])])
  | some (.tables es) => some (replaceEntry entries key (.tables (es ++ [[]])))
  | some _ => none

/-- Applies a change inside a table that a header opened. -/
def changeInside (f : Entries → Option Entries) (key : String) (entries : Entries) :
    Option Entries :=
  match entries.lookup key with
  | some (.table origin sub) =>
    (f sub).map fun sub => replaceEntry entries key (.table origin sub)
  | some (.tables es) => (changeLast f es).map fun es => replaceEntry entries key (.tables es)
  | _ => none

/-- One line applied to the document; the pair holds the key of the open table. -/
def applyLine (st : List String × Entries) : Line → Option (List String × Entries)
  | .header key => (changeAt openTable key st.2).map fun es => (key, es)
  | .arrayHeader key => (changeAt openElement key st.2).map fun es => (key, es)
  | .assignment key v =>
    let put (entries : Entries) : Option Entries :=
      match key with
      | [_] => assign v true key entries
      | _ => assign v false key entries
    match st.1 with
    | [] => (put st.2).map fun es => (st.1, es)
    | section_ => (changeAt (changeInside put) section_ st.2).map fun es => (st.1, es)

end ImportContext.Toml

namespace ImportContext

open Toml in
/-- The table that a document stands for. A byte order mark at its start does not count. -/
def parseToml? (text : String) : Option TomlValue := do
  let cs := match text.toList with
    | c :: rest => if c.toNat == 0xFEFF then rest else c :: rest
    | [] => []
  let lines ← readLines (cs.length + 1) cs
  let (_, entries) ← lines.foldlM applyLine ([], [])
  some (.table (entryValues entries))

end ImportContext
