import ImportContext.Text.Number

/-!
# Formatted output

The backslash escapes and formats of the commands `echo` and `printf`, as the shell dash has them.
Everything is done on bytes, because an escape can stand for any byte.

Main definitions: `Shell.unescape`, `Shell.fillAll`.
-/

namespace ImportContext.Shell

abbrev Bytes := List UInt8

/-- The byte of an ASCII character. -/
def byte (c : Char) : UInt8 :=
  UInt8.ofNat c.toNat

/-- The bytes of a text. -/
def bytesOf (s : String) : Bytes :=
  s.toUTF8.toList

/-- The bytes of letters behind a backslash. -/
def letterEscapes : List (Char × Nat) :=
  [('n', 10), ('t', 9), ('r', 13), ('\\', 92), ('a', 7), ('b', 8), ('e', 27), ('f', 12), ('v', 11)]

def isOctal (b : UInt8) : Bool :=
  48 ≤ b && b ≤ 55

/-- The value of octal digits. -/
def octalValue (digits : Bytes) : UInt8 :=
  UInt8.ofNat (digits.foldl (fun n b => 8 * n + (b.toNat - 48)) 0)

/-- What stands behind a backslash: the byte it gives, and how many bytes it takes. An octal number
has up to three digits; with `zero`, one more when the first is 0. -/
def readEscape? (zero : Bool) (bs : Bytes) : Option (UInt8 × Nat) :=
  match bs with
  | [] => none
  | b :: _ =>
    if isOctal b then
      let most := if zero && b == 48 then 4 else 3
      let digits := (bs.take most).takeWhile isOctal
      some (octalValue digits, digits.length)
    else (letterEscapes.find? fun (c, _) => byte c == b).map fun (_, n) => (UInt8.ofNat n, 1)

/-- Bytes with escapes replaced. With `stops`, `\c` ends the text; the second result says whether
it did. -/
def unescapeWithin (zero stops : Bool) : Nat → Bytes → Bytes × Bool
  | 0, _ => ([], false)
  | fuel + 1, bs =>
    match bs with
    | [] => ([], false)
    | 92 :: rest =>
      if stops && rest.head? == some (byte 'c') then ([], true)
      else
        match readEscape? zero rest with
        | some (b, n) =>
          let (more, stopped) := unescapeWithin zero stops fuel (rest.drop n)
          (b :: more, stopped)
        | none =>
          let (more, stopped) := unescapeWithin zero stops fuel rest
          (92 :: more, stopped)
    | b :: rest =>
      let (more, stopped) := unescapeWithin zero stops fuel rest
      (b :: more, stopped)

/-- Bytes with escapes replaced, and whether an escape ended them. -/
def unescape (zero stops : Bool) (bs : Bytes) : Bytes × Bool :=
  unescapeWithin zero stops (bs.length + 1) bs

/-- One place of a format to be filled in. -/
structure Directive where
  left : Bool
  zeros : Bool
  width : Nat
  letter : UInt8

/-- The directive behind a percent sign. -/
def readDirective? (bs : Bytes) : Option (Directive × Bytes) :=
  let flags := bs.takeWhile fun b => b == byte '-' || b == byte '0'
  let digits := (bs.drop flags.length).takeWhile fun b => 48 ≤ b && b ≤ 57
  match bs.drop (flags.length + digits.length) with
  | letter :: rest =>
    some ({
      left := flags.contains (byte '-')
      zeros := flags.contains (byte '0')
      width := digits.foldl (fun n b => 10 * n + (b.toNat - 48)) 0
      letter }, rest)
  | [] => none

/-- A text brought to the width of its directive. -/
def Directive.pad (d : Directive) (text : Bytes) : Bytes :=
  let missing := d.width - text.length
  if d.left then text ++ List.replicate missing (byte ' ')
  else List.replicate missing (byte (if d.zeros then '0' else ' ')) ++ text

/-- The number that an argument stands for; other texts count as 0. -/
def numberOf (arg : String) : Nat :=
  ((Text.parseNumber arg).toOption).getD 0

/-- The text of an argument as its directive wants it. -/
def Directive.text? (d : Directive) (arg : Option String) : Option Bytes :=
  let number (base : Nat) : Bytes :=
    bytesOf (String.ofList (Nat.toDigits base (numberOf (arg.getD ""))))
  let letter := Char.ofNat d.letter.toNat
  if letter == 's' then some (d.pad (bytesOf (arg.getD "")))
  else if letter == 'b' then some (d.pad (unescape true true (bytesOf (arg.getD ""))).1)
  else if letter == 'c' then some (d.pad ((bytesOf (arg.getD "")).take 1))
  else if letter == 'd' || letter == 'i' || letter == 'u' then some (d.pad (number 10))
  else if letter == 'o' then some (d.pad (number 8))
  else if letter == 'x' then some (d.pad (number 16))
  else none

/-- A format filled in once; gives the text and the arguments left over. A directive that is not
known ends it. -/
def fillFormat : Nat → Bytes → List String → Bytes × List String
  | 0, _, args => ([], args)
  | fuel + 1, bs, args =>
    match bs with
    | [] => ([], args)
    | 37 :: 37 :: rest =>
      let (text, args) := fillFormat fuel rest args
      (37 :: text, args)
    | 37 :: rest =>
      match readDirective? rest with
      | none => ([], [])
      | some (d, rest) =>
        match d.text? args.head? with
        | none => ([], [])
        | some shown =>
          let (text, args) := fillFormat fuel rest args.tail
          (shown ++ text, args)
    | 92 :: rest =>
      match readEscape? false rest with
      | some (b, n) =>
        let (text, args) := fillFormat fuel (rest.drop n) args
        (b :: text, args)
      | none =>
        let (text, args) := fillFormat fuel rest args
        (92 :: text, args)
    | b :: rest =>
      let (text, args) := fillFormat fuel rest args
      (b :: text, args)

/-- A format filled in until no argument is left. -/
def fillAll : Nat → Bytes → List String → Bytes
  | 0, _, _ => []
  | fuel + 1, format, args =>
    let (text, left) := fillFormat (format.length + 1) format args
    if left.isEmpty || left.length == args.length then text
    else text ++ fillAll fuel format left

end ImportContext.Shell
