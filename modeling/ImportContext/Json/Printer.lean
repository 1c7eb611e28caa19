import ImportContext.Json.Value

/-!
# Writing JSON

Two spaces of indentation per level, members in their order, and no escapes beyond quotation
marks, backslashes and control characters.
-/

namespace ImportContext.JsonValue

/-- A hexadecimal digit in lower case. -/
def hexDigit (n : Nat) : Char :=
  "0123456789abcdef".toList.getD n '0'

/-- A character inside quotation marks. -/
def escapeChar (c : Char) : List Char :=
  if c = '"' then ['\\', '"']
  else if c = '\\' then ['\\', '\\']
  else if c = '\n' then ['\\', 'n']
  else if c = '\r' then ['\\', 'r']
  else if c = '\t' then ['\\', 't']
  else if c = '\x08' then ['\\', 'b']
  else if c = '\x0c' then ['\\', 'f']
  else if c.toNat < 32 then ['\\', 'u', '0', '0', hexDigit (c.toNat / 16), hexDigit (c.toNat % 16)]
  else [c]

/-- A text in quotation marks. -/
def quoted (s : String) : String :=
  "\"" ++ String.ofList (s.toList.flatMap escapeChar) ++ "\""

/-- A new line at the given depth. -/
def newline (depth : Nat) : String :=
  "\n" ++ String.ofList (List.replicate (2 * depth) ' ')

/-- Lines of a container, with commas between them. -/
def enclosed (first last : String) (depth : Nat) : List String → String
  | [] => first ++ last
  | lines =>
    first ++ String.intercalate "," (lines.map (newline (depth + 1) ++ ·)) ++ newline depth ++ last

mutual

/-- The value written at the given depth. -/
def renderAt (depth : Nat) : JsonValue → String
  | null => "null"
  | bool b => if b then "true" else "false"
  | number text => text
  | string s => quoted s
  | array items => enclosed "[" "]" depth (renderItems (depth + 1) items)
  | object members => enclosed "\x7b" "\x7d" depth (renderMembers (depth + 1) members)

/-- The items of an array. -/
def renderItems (depth : Nat) : List JsonValue → List String
  | [] => []
  | v :: vs => renderAt depth v :: renderItems depth vs

/-- The members of an object. -/
def renderMembers (depth : Nat) : List (String × JsonValue) → List String
  | [] => []
  | (name, v) :: ms => (quoted name ++ ": " ++ renderAt depth v) :: renderMembers depth ms

end

/-- The value as indented text. -/
def pretty (v : JsonValue) : String :=
  renderAt 0 v

end ImportContext.JsonValue
