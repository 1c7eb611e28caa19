import ImportContext.Text.Blank

/-!
# Values of templates

What a template can print, test and loop over. A name that stands for nothing is undefined, which
prints as nothing; fields of an undefined value do not exist. Printing, truth and order are those
of the values of minijinja.

Main definitions: `TemplateValue`, `TemplateValue.display`, `TemplateValue.truth`,
`TemplateValue.same`, `TemplateValue.less?`.
-/

namespace ImportContext

inductive TemplateValue where
  | undefined
  | none
  | bool (b : Bool)
  | int (n : Int)
  /-- The number `digits` divided by ten to the power `places`. -/
  | decimal (digits : Int) (places : Nat)
  | string (s : String)
  | list (items : List TemplateValue)
  | record (fields : List (String × TemplateValue))
deriving Inhabited

namespace TemplateValue

/-- A text that may be missing. -/
def text? : Option String → TemplateValue
  | some s => string s
  | Option.none => none

/-- A number with its fraction, at least one digit of it; zeros at the end are dropped. -/
def decimalText (digits : Int) (places : Nat) : String :=
  let sign := if digits < 0 then "-" else ""
  let n := digits.natAbs
  let fraction := (toString (n % Nat.pow 10 places)).toList
  let padded := List.replicate (places - fraction.length) '0' ++ fraction
  let kept := Text.dropTailWhile (· == '0') padded
  sign ++ toString (n / Nat.pow 10 places) ++ "." ++
    (if kept.isEmpty then "0" else String.ofList kept)

/-- A character inside quotation marks. -/
def quoteChar (c : Char) : List Char :=
  if c == '"' then ['\\', '"']
  else if c == '\\' then ['\\', '\\']
  else if c == '\n' then ['\\', 'n']
  else if c == '\r' then ['\\', 'r']
  else if c == '\t' then ['\\', 't']
  else if c == '\x00' then ['\\', '0']
  else if c.toNat < 32 || c.toNat == 127 then
    ['\\', 'u', '\x7b'] ++ Nat.toDigits 16 c.toNat ++ ['\x7d']
  else [c]

/-- A text in quotation marks. -/
def quote (s : String) : String :=
  "\"" ++ String.ofList (s.toList.flatMap quoteChar) ++ "\""

mutual

/-- The text of a value inside a list or record. -/
def inner : TemplateValue → String
  | undefined => "undefined"
  | none => "none"
  | bool b => if b then "true" else "false"
  | int n => toString n
  | decimal d p => decimalText d p
  | string s => quote s
  | list items => "[" ++ String.intercalate ", " (innerItems items) ++ "]"
  | record fields => "\x7b" ++ String.intercalate ", " (innerFields fields) ++ "\x7d"

/-- The texts of the items of a list. -/
def innerItems : List TemplateValue → List String
  | [] => []
  | v :: vs => inner v :: innerItems vs

/-- The texts of the fields of a record. -/
def innerFields : List (String × TemplateValue) → List String
  | [] => []
  | (name, v) :: fs => (quote name ++ ": " ++ inner v) :: innerFields fs

end

/-- The text that a value is printed as. -/
def display : TemplateValue → String
  | undefined => ""
  | string s => s
  | v => inner v

/-- Whether a value counts as true. -/
def truth : TemplateValue → Bool
  | undefined => false
  | none => false
  | bool b => b
  | int n => n != 0
  | decimal d _ => d != 0
  | string s => s != ""
  | list items => !items.isEmpty
  | record fields => !fields.isEmpty

/-- A number as digits and places; truth values count as numbers. -/
def number? : TemplateValue → Option (Int × Nat)
  | bool b => some (if b then 1 else 0, 0)
  | int n => some (n, 0)
  | decimal d p => some (d, p)
  | _ => Option.none

/-- Two numbers with the same number of places. -/
def aligned? (a b : TemplateValue) : Option (Int × Int × Nat) := do
  let (x, p) ← a.number?
  let (y, q) ← b.number?
  some (x * Nat.pow 10 q, y * Nat.pow 10 p, p + q)

mutual

/-- Whether two values are equal. -/
def same (a b : TemplateValue) : Bool :=
  match a with
  | list xs =>
    match b with
    | list ys => sameItems xs ys
    | _ => false
  | record xs =>
    match b with
    | record ys => sameFields xs ys
    | _ => false
  | undefined =>
    match b with
    | undefined => true
    | _ => false
  | none =>
    match b with
    | none => true
    | _ => false
  | string s =>
    match b with
    | string t => s == t
    | _ => false
  | other => (aligned? other b).any fun (x, y, _) => x == y

/-- Whether the items of two lists are equal. -/
def sameItems (xs ys : List TemplateValue) : Bool :=
  match xs, ys with
  | [], [] => true
  | x :: xs, y :: ys => same x y && sameItems xs ys
  | _, _ => false

/-- Whether the fields of two records are equal. -/
def sameFields (xs ys : List (String × TemplateValue)) : Bool :=
  match xs, ys with
  | [], [] => true
  | (m, x) :: xs, (n, y) :: ys => m == n && same x y && sameFields xs ys
  | _, _ => false

end

/-- Whether the first value is smaller; `none` when the two cannot be compared. -/
def less? (a b : TemplateValue) : Option Bool :=
  match a, b with
  | string s, string t => some (decide (s < t))
  | a, b => (aligned? a b).map fun (x, y, _) => decide (x < y)

/-- A field of a value; fields that do not exist are undefined, and an undefined value has no
fields at all. -/
def field? (v : TemplateValue) (name : String) : Option TemplateValue :=
  match v with
  | undefined => Option.none
  | record fields => some ((fields.lookup name).getD undefined)
  | _ => some undefined

/-- An item of a list, counted from the end when negative. -/
def itemAt (items : List TemplateValue) (n : Int) : TemplateValue :=
  let i := if n < 0 then n + items.length else n
  if i < 0 then undefined else items.getD i.toNat undefined

/-- The value at an index. -/
def at? (v index : TemplateValue) : Option TemplateValue :=
  match v, index with
  | undefined, _ => Option.none
  | list items, int n => some (itemAt items n)
  | record fields, string name => some ((fields.lookup name).getD undefined)
  | _, _ => some undefined

/-- The values that a loop goes through: items, characters or names of fields. -/
def items? : TemplateValue → Option (List TemplateValue)
  | undefined => some []
  | none => some []
  | string s => some (s.toList.map fun c => string c.toString)
  | list items => some items
  | record fields => some (fields.map fun f => string f.1)
  | _ => Option.none

/-- The value that a path of fields and positions leads to, with dots between them. -/
def follow? (v : TemplateValue) (path : String) : Option TemplateValue :=
  (Text.splitOnChar '.' path).foldlM (fun v piece =>
    match v, piece.toNat? with
    | list items, some n => some (itemAt items n)
    | v, _ => v.field? piece) v

/-- The first position of a slice and its length, in a sequence of `n` items. Negative positions
count from the end. -/
def sliceBounds (n : Nat) (first : Int) (last : Option Int) : Nat × Nat :=
  let fromEnd (i : Int) : Int := if i < 0 then n + i else i
  let start := fromEnd first
  let stop := (last.map fromEnd).getD n
  if start < 0 || stop < 0 then (n, 0) else (start.toNat, (stop - start).toNat)

/-- Every item whose position is a multiple of `step`. -/
def everyNth {α : Type} (step : Nat) (items : List α) : List α :=
  (items.zipIdx.filter fun (_, i) => i % step == 0).map (·.1)

/-- A part of a text or list. -/
def slice? (v : TemplateValue) (first : Int) (last : Option Int) (step : Nat) :
    Option TemplateValue :=
  let cut {α : Type} (items : List α) : List α :=
    let (start, count) := sliceBounds items.length first last
    everyNth step ((items.drop start).take count)
  if step = 0 then Option.none
  else
    match v with
    | undefined => some (list [])
    | none => some (list [])
    | string s => some (string (String.ofList (cut s.toList)))
    | list items => some (list (cut items))
    | _ => Option.none

/-- Whether a container holds a value; `none` when it is no container. -/
def contains? (container v : TemplateValue) : Option Bool :=
  match container with
  | undefined => some false
  | string s => some ((s.splitOn v.display).length > 1 || v.display == "")
  | list items => some (items.any (·.same v))
  | record fields => some (fields.any fun f => (string f.1).same v)
  | _ => Option.none

end TemplateValue

end ImportContext
