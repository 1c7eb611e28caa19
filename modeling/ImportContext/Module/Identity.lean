import ImportContext.Text.Blank

/-!
# Dotted module identities

An identity is a list of segments. Reading a dotted text drops empty segments, so `a..b.` and
`a.b` are the same identity.
-/

namespace ImportContext

structure ModuleIdentity where
  segments : List String
deriving DecidableEq, Repr, Inhabited

namespace ModuleIdentity

/-- The segments of a dotted text that are not empty. -/
def parts (dotted : String) : List String :=
  (Text.splitOnChar '.' dotted).filter (· != "")

def parse (dotted : String) : ModuleIdentity :=
  ⟨parts dotted⟩

/-- The identity followed by the segments of a dotted text. -/
def join (i : ModuleIdentity) (dotted : String) : ModuleIdentity :=
  ⟨i.segments ++ parts dotted⟩

def text (i : ModuleIdentity) : String :=
  String.intercalate "." i.segments

def isEmpty (i : ModuleIdentity) : Bool :=
  i.segments.isEmpty

end ModuleIdentity

end ImportContext
