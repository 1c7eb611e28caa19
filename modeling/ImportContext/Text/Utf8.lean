/-!
# Text from bytes

Bytes that are no UTF-8 are read with a replacement character for each longest piece that begins
a character but does not complete it.
-/

namespace ImportContext.Text

/-- The character that stands for bytes that cannot be read. -/
def replacement : Char := '\uFFFD'

/-- A byte that continues a character. -/
def isContinuation (b : UInt8) : Bool :=
  0x80 ≤ b && b < 0xC0

/-- Whether `second` may follow `first` in a character of three or four bytes. -/
def mayFollow (first second : UInt8) : Bool :=
  isContinuation second &&
    if first == 0xE0 then 0xA0 ≤ second
    else if first == 0xED then second < 0xA0
    else if first == 0xF0 then 0x90 ≤ second
    else if first == 0xF4 then second < 0x90
    else true

/-- The low bits of a continuation byte. -/
def lowBits (b : UInt8) : Nat :=
  b.toNat % 64

/-- The characters of bytes, with replacements. -/
def lossyChars : List UInt8 → List Char
  | [] => []
  | a :: rest =>
    if a < 0x80 then Char.ofNat a.toNat :: lossyChars rest
    else if 0xC2 ≤ a && a < 0xE0 then
      match rest with
      | b :: more =>
        if isContinuation b then
          Char.ofNat (a.toNat % 32 * 64 + lowBits b) :: lossyChars more
        else replacement :: lossyChars (b :: more)
      | [] => [replacement]
    else if 0xE0 ≤ a && a < 0xF0 then
      match rest with
      | b :: more =>
        if mayFollow a b then
          match more with
          | c :: tail =>
            if isContinuation c then
              Char.ofNat (a.toNat % 16 * 4096 + lowBits b * 64 + lowBits c) :: lossyChars tail
            else replacement :: lossyChars (c :: tail)
          | [] => [replacement]
        else replacement :: lossyChars (b :: more)
      | [] => [replacement]
    else if 0xF0 ≤ a && a < 0xF5 then
      match rest with
      | b :: more =>
        if mayFollow a b then
          match more with
          | c :: tail =>
            if isContinuation c then
              match tail with
              | d :: last =>
                if isContinuation d then
                  Char.ofNat
                    (a.toNat % 8 * 262144 + lowBits b * 4096 + lowBits c * 64 + lowBits d) ::
                    lossyChars last
                else replacement :: lossyChars (d :: last)
              | [] => [replacement]
            else replacement :: lossyChars (c :: tail)
          | [] => [replacement]
        else replacement :: lossyChars (b :: more)
      | [] => [replacement]
    else replacement :: lossyChars rest

/-- Bytes as text, with replacements where they are no text. -/
def decodeLossy (bytes : ByteArray) : String :=
  match String.fromUTF8? bytes with
  | some s => s
  | none => String.ofList (lossyChars bytes.toList)

end ImportContext.Text
