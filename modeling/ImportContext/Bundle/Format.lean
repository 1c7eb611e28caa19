import ImportContext.Text.Blank

/-!
# Bundle formats

The two built-in shapes of a bundle text.
-/

namespace ImportContext

inductive BundleFormat where
  | markdown
  | plain
deriving DecidableEq, Repr, Inhabited

namespace BundleFormat

def name : BundleFormat → String
  | markdown => "markdown"
  | plain => "plain"

/-- The extension of files in this format. -/
def extension : BundleFormat → String
  | markdown => "md"
  | plain => "txt"

/-- The spellings of each format. -/
def spellings : List (String × BundleFormat) :=
  [("markdown", markdown), ("md", markdown), ("commonmark", markdown), ("plain", plain),
    ("text", plain), ("txt", plain)]

/-- The format that a name stands for, or why there is none. Case and outer blanks do not
count. -/
def ofName (s : String) : Except String BundleFormat :=
  let key := Text.asciiLower (Text.trim s)
  match spellings.lookup key with
  | some f => .ok f
  | none => .error ("unknown bundle format '" ++ key ++ "'")

end BundleFormat

end ImportContext
