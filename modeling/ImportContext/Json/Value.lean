/-!
# JSON values

A number is kept as it is written. Members of an object keep their order, and a name may occur
twice.
-/

namespace ImportContext

inductive JsonValue where
  | null
  | bool (b : Bool)
  | number (text : String)
  | string (s : String)
  | array (items : List JsonValue)
  | object (members : List (String × JsonValue))
deriving Inhabited

namespace JsonValue

/-- A natural number. -/
def nat (n : Nat) : JsonValue :=
  number (toString n)

/-- `null` for a missing value. -/
def optional {α : Type} (f : α → JsonValue) : Option α → JsonValue
  | some a => f a
  | none => null

/-- The values of all members of the given name. -/
def members (name : String) : JsonValue → List JsonValue
  | object ms => (ms.filter (·.1 == name)).map (·.2)
  | _ => []

end JsonValue

end ImportContext
