/-!
# Lines

A line ends in `\n`, `\r\n` or a lone `\r`. `splitLines` keeps each terminator with its line, so
concatenating the lines gives the text back; `unifyNewlines` writes every terminator as `\n`.
-/

namespace ImportContext.Text

/-- The lines of a text, each with its own terminator. -/
def lineChars : List Char → List (List Char)
  | [] => []
  | '\r' :: '\n' :: rest => ['\r', '\n'] :: lineChars rest
  | '\r' :: rest => ['\r'] :: lineChars rest
  | '\n' :: rest => ['\n'] :: lineChars rest
  | c :: rest =>
    match lineChars rest with
    | [] => [[c]]
    | line :: lines => (c :: line) :: lines

/-- The lines of a text as strings; none of them is empty. -/
def splitLines (s : String) : List String :=
  (lineChars s.toList).map String.ofList

/-- Every line terminator written as `\n`. -/
def unifyNewlines : List Char → List Char
  | [] => []
  | '\r' :: '\n' :: rest => '\n' :: unifyNewlines rest
  | '\r' :: rest => '\n' :: unifyNewlines rest
  | c :: rest => c :: unifyNewlines rest

/-- A line without a carriage return at its end. -/
def dropReturn (line : List Char) : List Char :=
  if line.getLast? == some '\r' then line.dropLast else line

/-- The lines of a text without their terminators `\n` or `\r\n`. -/
def plainLines (s : String) : List String :=
  let lines := s.toList.splitOn '\n'
  let last := lines.getLastD []
  let ended := lines.dropLast.map dropReturn
  (if last.isEmpty then ended else ended ++ [last]).map String.ofList

end ImportContext.Text
