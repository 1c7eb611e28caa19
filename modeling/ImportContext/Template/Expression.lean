import ImportContext.Template.Filter

/-!
# Expressions of templates

Names, literals, fields, items, operators, filters and tests, and their values under an assignment
of values to names. The operators mean what they mean to minijinja.

Main definitions: `TemplateExpr`, `TemplateExpr.eval?`.
-/

namespace ImportContext

inductive TemplateOp where
  | or
  | and
  | equal
  | unequal
  | less
  | atMost
  | greater
  | atLeast
  | member
  | add
  | subtract
  | multiply
  | divide
  | quotient
  | remainder
  | power
  | concat
deriving DecidableEq, Repr

inductive TemplateExpr where
  | literal (v : TemplateValue)
  | name (s : String)
  | field (e : TemplateExpr) (name : String)
  | index (e i : TemplateExpr)
  /-- A part of a sequence: first position, position behind the last one, step. -/
  | slice (e : TemplateExpr) (first last step : Option TemplateExpr)
  | filter (name : String) (e : TemplateExpr) (args : List TemplateExpr)
      (named : List (String × TemplateExpr))
  | test (name : String) (e : TemplateExpr) (args : List TemplateExpr)
  /-- The numbers of a range, by its one, two or three bounds. -/
  | range (bounds : List TemplateExpr)
  | negate (e : TemplateExpr)
  | not (e : TemplateExpr)
  | binary (op : TemplateOp) (a b : TemplateExpr)
  | conditional (test yes : TemplateExpr) (no : Option TemplateExpr)
  | list (items : List TemplateExpr)
  | record (fields : List (String × TemplateExpr))
deriving Inhabited

/-- Values by name; the first entry of a name is in force. -/
abbrev TemplateScope := List (String × TemplateValue)

/-! ## Operators -/

/-- A number with as few places as it had in the operands. -/
def numberValue (a b : TemplateValue) (digits : Int) (places : Nat) : TemplateValue :=
  match a, b with
  | .decimal _ _, _ => .decimal digits places
  | _, .decimal _ _ => .decimal digits places
  | _, _ => .int digits

/-- A sum or difference of numbers. -/
def combine? (f : Int → Int → Int) (a b : TemplateValue) : Option TemplateValue := do
  let (x, y, places) ← TemplateValue.aligned? a b
  some (numberValue a b (f x y) places)

/-- How many significant digits a quotient is given. -/
def quotientDigits : Nat := 16

/-- A quotient of whole numbers, cut off behind its last digit that can be told. -/
def quotientValue (x y : Int) : TemplateValue :=
  let whole := x.natAbs / y.natAbs
  let places := if whole = 0 then quotientDigits else quotientDigits - (toString whole).length
  .decimal ((x * Nat.pow 10 places).tdiv y) places

/-- An operation on whole numbers with a divisor other than 0. -/
def divided? (f : Int → Int → TemplateValue) (a b : TemplateValue) : Option TemplateValue :=
  match a, b with
  | .int x, .int y => if y = 0 then Option.none else some (f x y)
  | _, _ => Option.none

/-- The value of an operator whose operands are both evaluated. -/
def TemplateOp.apply? (op : TemplateOp) (a b : TemplateValue) : Option TemplateValue :=
  match op with
  | .or => some (if a.truth then a else b)
  | .and => some (if a.truth then b else a)
  | .equal => some (.bool (a.same b))
  | .unequal => some (.bool (!a.same b))
  | .less => some (.bool ((a.less? b).getD false))
  | .atMost => some (.bool ((b.less? a).any (!·)))
  | .greater => some (.bool ((b.less? a).getD false))
  | .atLeast => some (.bool ((a.less? b).any (!·)))
  | .member => (b.contains? a).map .bool
  | .concat => some (.string (a.display ++ b.display))
  | .add =>
    match a, b with
    | .string s, .string t => some (.string (s ++ t))
    | _, _ => combine? (· + ·) a b
  | .subtract => combine? (· - ·) a b
  | .multiply => do
    let (x, p) ← a.number?
    let (y, q) ← b.number?
    some (numberValue a b (x * y) (p + q))
  | .divide => divided? quotientValue a b
  | .quotient => divided? (fun x y => .int (x / y)) a b
  | .remainder => divided? (fun x y => .int (x % y)) a b
  | .power =>
    match a, b with
    | .int x, .int (.ofNat n) => some (.int (Int.pow x n))
    | _, _ => Option.none

/-- Whether the first operand decides the value alone. -/
def TemplateOp.decides (op : TemplateOp) (a : TemplateValue) : Bool :=
  match op with
  | .or => a.truth
  | .and => !a.truth
  | _ => false

/-- Every `step`-th number from `first` on, as long as it is below `last`. -/
def numbersBetween (first last : Int) (step : Nat) : List TemplateValue :=
  let count := ((last - first).toNat + step - 1) / step
  (List.range count).map fun (i : Nat) => .int (first + i * step)

/-- The numbers of a range. -/
def rangeValue? (bounds : List TemplateValue) : Option TemplateValue :=
  match bounds with
  | [.int last] => some (.list (numbersBetween 0 last 1))
  | [.int first, .int last] => some (.list (numbersBetween first last 1))
  | [.int first, .int last, .int step] =>
    if step ≤ 0 then Option.none else some (.list (numbersBetween first last step.toNat))
  | _ => Option.none

/-- A position in a slice; a missing one is left open. -/
def position? : TemplateValue → Option (Option Int)
  | .int n => some (some n)
  | .none => some Option.none
  | _ => Option.none

/-- The part of a sequence between positions. -/
def sliceValue? (v first last step : TemplateValue) : Option TemplateValue := do
  let first ← position? first
  let last ← position? last
  let step ← position? step
  if step.any (· < 0) then Option.none
  else v.slice? (first.getD 0) last ((step.map Int.toNat).getD 1)

namespace TemplateExpr

mutual

/-- The value of an expression; `none` when it has none. -/
def eval? (scope : TemplateScope) (e : TemplateExpr) : Option TemplateValue :=
  match e with
  | literal v => some v
  | name s => some ((scope.lookup s).getD .undefined)
  | field e key => (eval? scope e).bind (·.field? key)
  | index e i => do
    let v ← eval? scope e
    v.at? (← eval? scope i)
  | slice e first last step => do
    let v ← eval? scope e
    let first ← evalOr? scope first
    let last ← evalOr? scope last
    sliceValue? v first last (← evalOr? scope step)
  | filter f e args named => do
    let v ← eval? scope e
    let args ← evalAll? scope args
    applyFilter? f v args (← evalFields? scope named)
  | test f e args => do
    let v ← eval? scope e
    (v.passes? f (← evalAll? scope args)).map .bool
  | range bounds => (evalAll? scope bounds).bind rangeValue?
  | negate e => do
    let v ← eval? scope e
    match v with
    | .decimal d p => some (.decimal (-d) p)
    | _ => v.number?.map fun (n, _) => .int (-n)
  | not e => do
    let v ← eval? scope e
    some (.bool (!v.truth))
  | binary op a b => do
    let x ← eval? scope a
    if op.decides x then some x else op.apply? x (← eval? scope b)
  | conditional condition yes no => do
    let v ← eval? scope condition
    if v.truth then eval? scope yes
    else
      match no with
      | some no => eval? scope no
      | Option.none => some .undefined
  | list items => (evalAll? scope items).map .list
  | record fields => (evalFields? scope fields).map fun fs => .record (sortFields fs)

/-- The value of an expression that may be missing. -/
def evalOr? (scope : TemplateScope) (e : Option TemplateExpr) : Option TemplateValue :=
  match e with
  | some e => eval? scope e
  | Option.none => some .none

/-- The values of expressions, in order. -/
def evalAll? (scope : TemplateScope) (es : List TemplateExpr) : Option (List TemplateValue) :=
  match es with
  | [] => some []
  | e :: es => do
    let v ← eval? scope e
    let vs ← evalAll? scope es
    some (v :: vs)

/-- The values of named expressions, in order. -/
def evalFields? (scope : TemplateScope) (fs : List (String × TemplateExpr)) :
    Option (List (String × TemplateValue)) :=
  match fs with
  | [] => some []
  | (key, e) :: fs => do
    let v ← eval? scope e
    let vs ← evalFields? scope fs
    some ((key, v) :: vs)

end

end TemplateExpr

end ImportContext
