/-!
# TOML values

Numbers with a fraction and moments in time occur in settings files but no setting has such a
value, so only their kind is kept.
-/

namespace ImportContext

inductive TomlValue where
  | string (s : String)
  | integer (n : Int)
  | float
  | moment
  | boolean (b : Bool)
  | array (items : List TomlValue)
  | table (entries : List (String × TomlValue))
deriving Inhabited

namespace TomlValue

/-- The entry of a table. -/
def entry? (name : String) : TomlValue → Option TomlValue
  | table entries => entries.lookup name
  | _ => none

end TomlValue

end ImportContext
