import ImportContext.Json.Value

/-!
# Reading JSON

The strict grammar: no comments, no trailing commas, no control characters in strings, and no
half of a surrogate pair. `JsonValue.parse?` reads a whole text.
-/

namespace ImportContext.JsonValue

def isJsonSpace (c : Char) : Bool :=
  c == ' ' || c == '\n' || c == '\t' || c == '\r'

def skipSpace (cs : List Char) : List Char :=
  cs.dropWhile isJsonSpace

/-- The value of a hexadecimal digit. -/
def hexValue? (c : Char) : Option Nat :=
  if c.isDigit then some (c.toNat - 48)
  else if 'a' ≤ c && c ≤ 'f' then some (c.toNat - 87)
  else if 'A' ≤ c && c ≤ 'F' then some (c.toNat - 55)
  else none

/-- Four hexadecimal digits. -/
def readUnit : List Char → Option (Nat × List Char)
  | a :: b :: c :: d :: rest => do
    let a ← hexValue? a
    let b ← hexValue? b
    let c ← hexValue? c
    let d ← hexValue? d
    some (((a * 16 + b) * 16 + c) * 16 + d, rest)
  | _ => none

/-- The character of an escape behind `\u`; the second half of a pair must follow the first. -/
def readEscapedUnit (cs : List Char) : Option (Char × List Char) := do
  let (n, rest) ← readUnit cs
  if 0xD800 ≤ n && n < 0xDC00 then
    match rest with
    | '\\' :: 'u' :: rest => do
      let (m, rest) ← readUnit rest
      if 0xDC00 ≤ m && m < 0xE000 then
        some (Char.ofNat (0x10000 + (n - 0xD800) * 1024 + (m - 0xDC00)), rest)
      else none
    | _ => none
  else if 0xDC00 ≤ n && n < 0xE000 then none
  else some (Char.ofNat n, rest)

/-- The character of a one-letter escape. -/
def simpleEscape? (c : Char) : Option Char :=
  [('"', '"'), ('\\', '\\'), ('/', '/'), ('b', '\x08'), ('f', '\x0c'), ('n', '\n'), ('r', '\r'),
    ('t', '\t')].lookup c

/-- The rest of a string behind its opening mark; `acc` holds the characters read, last first. -/
def readString : Nat → List Char → List Char → Option (String × List Char)
  | 0, _, _ => none
  | fuel + 1, acc, cs =>
    match cs with
    | [] => none
    | '"' :: rest => some (String.ofList acc.reverse, rest)
    | '\\' :: 'u' :: rest => do
      let (c, rest) ← readEscapedUnit rest
      readString fuel (c :: acc) rest
    | '\\' :: c :: rest => do
      let c ← simpleEscape? c
      readString fuel (c :: acc) rest
    | c :: rest => if c.toNat < 32 || c == '\\' then none else readString fuel (c :: acc) rest

/-- Length of the fraction and exponent behind the digits of a number. -/
def numberTail (cs : List Char) : Option (List Char × List Char) := do
  let (fraction, rest) ← match cs with
    | '.' :: rest =>
      let ds := rest.takeWhile Char.isDigit
      if ds.isEmpty then none else some ('.' :: ds, rest.drop ds.length)
    | _ => some ([], cs)
  match rest with
  | e :: more =>
    if e == 'e' || e == 'E' then
      let (sign, digits) := match more with
        | s :: ds => if s == '+' || s == '-' then ([s], ds) else ([], more)
        | [] => ([], more)
      let ds := digits.takeWhile Char.isDigit
      if ds.isEmpty then none
      else some (fraction ++ e :: sign ++ ds, digits.drop ds.length)
    else some (fraction, rest)
  | [] => some (fraction, rest)

/-- A number, kept as written. -/
def readNumber (cs : List Char) : Option (JsonValue × List Char) := do
  let (sign, body) := match cs with
    | '-' :: rest => (['-'], rest)
    | _ => ([], cs)
  let digits := match body with
    | '0' :: _ => ['0']
    | _ => body.takeWhile Char.isDigit
  if digits.isEmpty then none
  else
    let (tail, rest) ← numberTail (body.drop digits.length)
    some (.number (String.ofList (sign ++ digits ++ tail)), rest)

mutual

/-- A value at the head of a text; `fuel` bounds the nesting and the length of lists. -/
def readValue : Nat → List Char → Option (JsonValue × List Char)
  | 0, _ => none
  | fuel + 1, cs =>
    match skipSpace cs with
    | 'n' :: 'u' :: 'l' :: 'l' :: rest => some (.null, rest)
    | 't' :: 'r' :: 'u' :: 'e' :: rest => some (.bool true, rest)
    | 'f' :: 'a' :: 'l' :: 's' :: 'e' :: rest => some (.bool false, rest)
    | '"' :: rest => (readString (rest.length + 1) [] rest).map fun (s, rest) => (.string s, rest)
    | '[' :: rest =>
      match skipSpace rest with
      | ']' :: rest => some (.array [], rest)
      | rest => (readItems fuel rest).map fun (vs, rest) => (.array vs, rest)
    | '\x7b' :: rest =>
      match skipSpace rest with
      | '\x7d' :: rest => some (.object [], rest)
      | rest => (readMembers fuel rest).map fun (ms, rest) => (.object ms, rest)
    | rest => readNumber rest

/-- Items up to the closing bracket. -/
def readItems : Nat → List Char → Option (List JsonValue × List Char)
  | 0, _ => none
  | fuel + 1, cs => do
    let (v, rest) ← readValue fuel cs
    match skipSpace rest with
    | ',' :: rest => (readItems fuel rest).map fun (vs, rest) => (v :: vs, rest)
    | ']' :: rest => some ([v], rest)
    | _ => none

/-- Members up to the closing brace. -/
def readMembers : Nat → List Char → Option (List (String × JsonValue) × List Char)
  | 0, _ => none
  | fuel + 1, cs =>
    match skipSpace cs with
    | '"' :: rest => do
      let (name, rest) ← readString (rest.length + 1) [] rest
      match skipSpace rest with
      | ':' :: rest => do
        let (v, rest) ← readValue fuel rest
        match skipSpace rest with
        | ',' :: rest => (readMembers fuel rest).map fun (ms, rest) => ((name, v) :: ms, rest)
        | '\x7d' :: rest => some ([(name, v)], rest)
        | _ => none
      | _ => none
    | _ => none

end

/-- The value that a whole text stands for. -/
def parse? (s : String) : Option JsonValue :=
  match readValue (s.length + 1) s.toList with
  | some (v, rest) => if (skipSpace rest).isEmpty then some v else none
  | none => none

end ImportContext.JsonValue
