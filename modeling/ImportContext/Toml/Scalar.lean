import ImportContext.Toml.Value
import ImportContext.Json.Reader

/-!
# Strings, numbers and moments of TOML

Readers of the simple values of TOML 1.0. Each takes the text at which a value starts and gives the
value with the text behind it, or `none` when the text does not follow the format.
-/

namespace ImportContext.Toml

/-- A character that may stand in a text or a comment as it is. -/
def isPlain (c : Char) : Bool :=
  c == '\t' || (32 ≤ c.toNat && c.toNat != 127)

def skipBlank (cs : List Char) : List Char :=
  cs.dropWhile fun c => c == ' ' || c == '\t'

/-- The text behind a line end. -/
def lineEnd? : List Char → Option (List Char)
  | '\n' :: rest => some rest
  | '\r' :: '\n' :: rest => some rest
  | _ => none

/-- The text behind a comment, if there is one. -/
def skipComment : List Char → List Char
  | '#' :: rest => rest.dropWhile isPlain
  | cs => cs

/-! ## Strings -/

/-- The value of hexadecimal digits. -/
def hexNumber? (digits : List Char) : Option Nat :=
  digits.foldlM (fun n c => (JsonValue.hexValue? c).map (16 * n + ·)) 0

/-- The character of a number that is no half of a surrogate pair. -/
def scalar? (n : Nat) : Option Char :=
  if n < 0xD800 || (0xE000 ≤ n && n < 0x110000) then some (Char.ofNat n) else none

/-- The character behind a backslash. -/
def readEscape : List Char → Option (Char × List Char)
  | 'b' :: rest => some ('\x08', rest)
  | 't' :: rest => some ('\t', rest)
  | 'n' :: rest => some ('\n', rest)
  | 'f' :: rest => some ('\x0c', rest)
  | 'r' :: rest => some ('\r', rest)
  | '"' :: rest => some ('"', rest)
  | '\\' :: rest => some ('\\', rest)
  | 'u' :: rest => do
    let n ← hexNumber? (rest.take 4)
    if rest.length < 4 then none else (scalar? n).map fun c => (c, rest.drop 4)
  | 'U' :: rest => do
    let n ← hexNumber? (rest.take 8)
    if rest.length < 8 then none else (scalar? n).map fun c => (c, rest.drop 8)
  | _ => none

/-- The rest of a basic string; `acc` holds what was read, last first. -/
def readBasic : Nat → List Char → List Char → Option (String × List Char)
  | 0, _, _ => none
  | fuel + 1, acc, cs =>
    match cs with
    | '"' :: rest => some (String.ofList acc.reverse, rest)
    | '\\' :: rest => do
      let (c, rest) ← readEscape rest
      readBasic fuel (c :: acc) rest
    | c :: rest => if isPlain c then readBasic fuel (c :: acc) rest else none
    | [] => none

/-- The rest of a literal string. -/
def readLiteral : List Char → List Char → Option (String × List Char)
  | _, [] => none
  | acc, c :: rest =>
    if c == '\x27' then some (String.ofList acc.reverse, rest)
    else if isPlain c then readLiteral (c :: acc) rest
    else none

/-- The end of a string over several lines at a run of marks: three of them end it, and up to two
more in front belong to it. -/
def closeLong (mark : Char) (acc cs : List Char) : Option (String × List Char) :=
  let marks := cs.takeWhile (· == mark)
  if marks.length ≤ 5 then
    some (String.ofList (List.replicate (marks.length - 3) mark ++ acc).reverse,
      cs.drop marks.length)
  else some (String.ofList (mark :: mark :: acc).reverse, cs.drop 5)

/-- Blanks and line ends behind a backslash at the end of a line. -/
def skipFold (cs : List Char) : List Char :=
  cs.dropWhile fun c => c == ' ' || c == '\t' || c == '\n' || c == '\r'

/-- The rest of a basic string over several lines, each of which ends in `\n`. -/
def readLongBasic : Nat → List Char → List Char → Option (String × List Char)
  | 0, _, _ => none
  | fuel + 1, acc, cs =>
    match cs with
    | '"' :: '"' :: '"' :: _ => closeLong '"' acc cs
    | '\\' :: rest =>
      match lineEnd? (skipBlank rest) with
      | some _ => readLongBasic fuel acc (skipFold rest)
      | none => do
        let (c, rest) ← readEscape rest
        readLongBasic fuel (c :: acc) rest
    | '\r' :: '\n' :: rest => readLongBasic fuel ('\n' :: acc) rest
    | '\n' :: rest => readLongBasic fuel ('\n' :: acc) rest
    | c :: rest => if isPlain c then readLongBasic fuel (c :: acc) rest else none
    | [] => none

/-- The rest of a literal string over several lines. -/
def readLongLiteral : Nat → List Char → List Char → Option (String × List Char)
  | 0, _, _ => none
  | fuel + 1, acc, cs =>
    match cs with
    | '\x27' :: '\x27' :: '\x27' :: _ => closeLong '\x27' acc cs
    | '\r' :: '\n' :: rest => readLongLiteral fuel ('\n' :: acc) rest
    | '\n' :: rest => readLongLiteral fuel ('\n' :: acc) rest
    | c :: rest => if isPlain c then readLongLiteral fuel (c :: acc) rest else none
    | [] => none

/-- A string of any kind. A line end behind three opening marks does not count. -/
def readString (cs : List Char) : Option (String × List Char) :=
  match cs with
  | '"' :: '"' :: '"' :: rest => readLongBasic (cs.length + 1) [] ((lineEnd? rest).getD rest)
  | '"' :: rest => readBasic (cs.length + 1) [] rest
  | '\x27' :: '\x27' :: '\x27' :: rest =>
    readLongLiteral (cs.length + 1) [] ((lineEnd? rest).getD rest)
  | '\x27' :: rest => readLiteral [] rest
  | _ => none

/-! ## Numbers and moments -/

/-- A character that can belong to a word without marks. -/
def isWordChar (c : Char) : Bool :=
  c.isAlphanum || c == '_' || c == '+' || c == '-' || c == '.' || c == ':'

/-- Digits with single underscores between them; gives the digits alone. -/
def digits? (isDigit : Char → Bool) : List Char → Option (List Char)
  | [] => none
  | [c] => if isDigit c then some [c] else none
  | c :: '_' :: rest => if isDigit c then (digits? isDigit rest).map (c :: ·) else none
  | c :: rest => if isDigit c then (digits? isDigit rest).map (c :: ·) else none

/-- The value of digits in a base. -/
def valueIn (base : Nat) (ds : List Char) : Nat :=
  ds.foldl (fun n c => base * n + (JsonValue.hexValue? c).getD 0) 0

/-- An integer of 64 bits. -/
def bounded (n : Int) : Option TomlValue :=
  if Int64.minValue.toInt ≤ n && n ≤ Int64.maxValue.toInt then some (.integer n) else none

/-- Decimal digits without a leading zero. -/
def decimal? (cs : List Char) : Option Nat := do
  let ds ← digits? Char.isDigit cs
  if ds.head? == some '0' && 1 < ds.length then none else some (valueIn 10 ds)

/-- The fraction or exponent behind the whole part of a number. -/
def isFloatTail : List Char → Bool
  | '.' :: rest =>
    let fraction := rest.takeWhile fun c => c.isDigit || c == '_'
    (digits? Char.isDigit fraction).isSome && isExponent (rest.drop fraction.length)
  | cs => !cs.isEmpty && isExponent cs
where
  /-- Nothing, or an exponent. -/
  isExponent : List Char → Bool
    | [] => true
    | e :: rest =>
      (e == 'e' || e == 'E') &&
        (digits? Char.isDigit
          (match rest with
          | '+' :: ds => ds
          | '-' :: ds => ds
          | ds => ds)).isSome

/-- A number in decimal digits, behind its sign. -/
def decimalNumber? (negative : Bool) (cs : List Char) : Option TomlValue := do
  let whole := cs.takeWhile fun c => c.isDigit || c == '_'
  let n ← decimal? whole
  let tail := cs.drop whole.length
  if tail.isEmpty then bounded (if negative then -(n : Int) else n)
  else if isFloatTail tail then some .float
  else none

/-- The number of two digits, if it lies between bounds. -/
def pair? (low high : Nat) : List Char → Option (List Char)
  | a :: b :: rest =>
    if a.isDigit && b.isDigit then
      let n := valueIn 10 [a, b]
      if low ≤ n && n ≤ high then some rest else none
    else none
  | _ => none

/-- The text behind one expected character. -/
def expect? (c : Char) : List Char → Option (List Char)
  | d :: rest => if c == d then some rest else none
  | [] => none

/-- The text behind a time of the day. -/
def time? (cs : List Char) : Option (List Char) := do
  let rest ← expect? ':' (← pair? 0 23 cs)
  let rest ← expect? ':' (← pair? 0 59 rest)
  let rest ← pair? 0 60 rest
  match rest with
  | '.' :: more =>
    let ds := more.takeWhile Char.isDigit
    if ds.isEmpty then none else some (more.drop ds.length)
  | _ => some rest

/-- The days of a month. -/
def daysIn (year month : Nat) : Nat :=
  if month == 2 then
    if (year % 4 == 0 && year % 100 != 0) || year % 400 == 0 then 29 else 28
  else if [4, 6, 9, 11].contains month then 30
  else 31

/-- The text behind a date. -/
def date? (cs : List Char) : Option (List Char) := do
  let year := cs.take 4
  if year.length < 4 || !year.all Char.isDigit then none
  else
    let monthText ← expect? '-' (cs.drop 4)
    let rest ← pair? 1 12 monthText
    let dayText ← expect? '-' rest
    pair? 1 (daysIn (valueIn 10 year) (valueIn 10 (monthText.take 2))) dayText

/-- The text behind an offset from universal time, if there is one. -/
def offset? : List Char → Option (List Char)
  | 'Z' :: rest => some rest
  | 'z' :: rest => some rest
  | '+' :: rest => do pair? 0 59 (← expect? ':' (← pair? 0 23 rest))
  | '-' :: rest => do pair? 0 59 (← expect? ':' (← pair? 0 23 rest))
  | rest => some rest

/-- A moment in time: a date, a time, or both with an optional offset. -/
def readMoment (cs : List Char) : Option (List Char) :=
  match date? cs with
  | some rest =>
    match rest with
    | 'T' :: more => (time? more).bind offset?
    | 't' :: more => (time? more).bind offset?
    | ' ' :: more =>
      match time? more with
      | some rest => offset? rest
      | none => some rest
    | _ => some rest
  | none => time? cs

/-- A word without marks: a boolean or a number. -/
def word? (w : List Char) : Option TomlValue :=
  match w with
  | ['t', 'r', 'u', 'e'] => some (.boolean true)
  | ['f', 'a', 'l', 's', 'e'] => some (.boolean false)
  | '0' :: 'x' :: ds =>
    (digits? (fun c => (JsonValue.hexValue? c).isSome) ds).bind fun ds => bounded (valueIn 16 ds)
  | '0' :: 'o' :: ds =>
    (digits? (fun c => '0' ≤ c && c ≤ '7') ds).bind fun ds => bounded (valueIn 8 ds)
  | '0' :: 'b' :: ds =>
    (digits? (fun c => c == '0' || c == '1') ds).bind fun ds => bounded (valueIn 2 ds)
  | _ =>
    let (negative, body) := match w with
      | '-' :: body => (true, body)
      | '+' :: body => (false, body)
      | _ => (false, w)
    if body == ['i', 'n', 'f'] || body == ['n', 'a', 'n'] then some .float
    else decimalNumber? negative body

/-- A simple value. -/
def readScalar (cs : List Char) : Option (TomlValue × List Char) :=
  match readString cs with
  | some (s, rest) => some (.string s, rest)
  | none =>
    match readMoment cs with
    | some rest => some (.moment, rest)
    | none =>
      let w := cs.takeWhile isWordChar
      (word? w).map fun v => (v, cs.drop w.length)

end ImportContext.Toml
