import ImportContext.FileSystem.Basic
import ImportContext.Import.Extract

/-!
# Errors of a location search

A symbol that is not found is no error; these are the ways in which a symbol that exists cannot
be loaded.
-/

namespace ImportContext

inductive LocateError where
  /-- The module was found but failed to load. -/
  | load (module message : String)
  | malformed (module : String) (cause : SyntaxError)
  | unreadable (path : Path) (cause : OsError)
  | interpreter (program message : String)
deriving DecidableEq, Repr

/-- The wording of an error, its causes behind it. -/
def LocateError.message : LocateError → String
  | load module message => "failed to load '" ++ module ++ "': " ++ message
  | malformed module cause => "failed to parse module '" ++ module ++ "': " ++ cause.message
  | unreadable path cause => "failed to read " ++ path.text ++ ": " ++ cause.message
  | interpreter program message => "interpreter '" ++ program ++ "' failed: " ++ message

end ImportContext
