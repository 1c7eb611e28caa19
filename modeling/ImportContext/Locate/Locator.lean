import ImportContext.Locate.Probe
import ImportContext.Locate.Static

/-!
# Locators

The two ways to find where an import target is defined: reading source text, or asking an
interpreter.
-/

namespace ImportContext

inductive LocatorKind where
  | static
  | dynamic
deriving DecidableEq, Repr, Inhabited

namespace LocatorKind

def name : LocatorKind → String
  | static => "static"
  | dynamic => "dynamic"

/-- The locator that a name stands for, or why there is none. Case and outer blanks do not
count. -/
def ofName (s : String) : Except String LocatorKind :=
  match Text.asciiLower (Text.trim s) with
  | "static" => .ok static
  | "dynamic" => .ok dynamic
  | "runtime" => .ok dynamic
  | other => .error ("unknown locator '" ++ other ++ "' (expected 'static' or 'dynamic')")

end LocatorKind

/-- A locator of one of the two kinds, with what it needs to know. -/
structure Locator where
  kind : LocatorKind := .static
  layout : PackageLayout := {}
  /-- The interpreter that is asked. -/
  program : String := "python3"
deriving Inhabited

/-- The location of an import target. -/
def Locator.locate (l : Locator) (h : Host) (roots : SearchPath) (r : ResolvedImport) :
    Except LocateError SymbolLocation :=
  match l.kind with
  | .static => locateStatic l.layout h roots r
  | .dynamic => locateByProbe h l.program roots r

end ImportContext
