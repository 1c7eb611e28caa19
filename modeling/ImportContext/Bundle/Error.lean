import ImportContext.Locate.Error
import ImportContext.Module.Layout
import ImportContext.Tree.Build

/-!
# Errors of bundling

Errors of a single import can be recovered from: the bundle then reports them in place of the
definition.
-/

namespace ImportContext

/-- Why a template gives no text. -/
inductive RenderError where
  | notFound (name : String)
  | unreadable (path : Path) (cause : OsError)
  /-- The template does not follow the grammar, or an expression in it has no value. Which of these,
  and the line at which the template engine reports it, is not kept. -/
  | failed (name : String)
deriving DecidableEq, Repr

/-- The wording of an error. The placeholder `<detail>` stands for what the template engine says
of a template that gives no text: the kind of the error, its description and its line. -/
def RenderError.message : RenderError → String
  | notFound name => "template '" ++ name ++ "' not found (built-in or filesystem)"
  | unreadable path cause =>
    "failed to load template from " ++ path.text ++ ": " ++ cause.message
  | failed name => "template '" ++ name ++ "': <detail>"

/-- Why there is no bundle. -/
inductive BundleError where
  | unreadable (path : Path) (cause : OsError)
  | malformed (path : Path) (cause : SyntaxError)
  | resolution (statement : String) (cause : ResolutionError)
  | locate (statement : String) (cause : LocateError)
  | tree (cause : TreeError)
  | ignore (cause : IgnoreError)
  | render (cause : RenderError)
deriving DecidableEq, Repr

namespace BundleError

/-- The wording of an error, its causes behind it. -/
def message : BundleError → String
  | unreadable path cause => "failed to read " ++ path.text ++ ": " ++ cause.message
  | malformed path cause => "failed to parse " ++ path.text ++ ": " ++ cause.message
  | resolution statement cause => "failed to resolve `" ++ statement ++ "`: " ++ cause.message
  | locate statement cause => "failed to locate `" ++ statement ++ "`: " ++ cause.message
  | tree cause => cause.message
  | ignore cause => cause.message
  | render cause => "failed to render bundle: " ++ cause.message

/-- Whether only one import is concerned. -/
def isRecoverable : BundleError → Bool
  | resolution _ _ => true
  | locate _ _ => true
  | _ => false

end BundleError

end ImportContext
