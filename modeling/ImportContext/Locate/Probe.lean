import ImportContext.Json.Reader
import ImportContext.Locate.Error
import ImportContext.Locate.Location
import ImportContext.Locate.ProbeScript
import ImportContext.Module.Layout
import ImportContext.Text.Number
import ImportContext.Text.Utf8

/-!
# Locating symbols by asking an interpreter

A program is run once per symbol. It prints a report, an object with a `status`, from which the
location is read off. What the program does is up to the host.

Main definitions: `ProbeReport.ofJson?`, `runProbe`, `locateByProbe`.
-/

namespace ImportContext

/-- What an interpreter says about a symbol. -/
inductive ProbeReport where
  | found (file : Option Path) (startLine : Option UInt64) (lines : Option (List String))
      (representation qualifiedName : String)
  | missing (message : String)
  | failed (message : String)
deriving DecidableEq, Repr

namespace ProbeReport

/-- The value of a member that must occur at most once; `none` when it occurs twice. -/
def member? (report : JsonValue) (name : String) : Option (Option JsonValue) :=
  match report.members name with
  | [] => some none
  | [v] => some (some v)
  | _ => none

/-- A text that must be there. -/
def requiredText? (report : JsonValue) (name : String) : Option String := do
  match ← member? report name with
  | some (.string s) => some s
  | _ => none

/-- A value that may be missing or `null`. -/
def optional? {α : Type} (read : JsonValue → Option α) (report : JsonValue) (name : String) :
    Option (Option α) := do
  match ← member? report name with
  | none => some none
  | some .null => some none
  | some v => (read v).map some

def readText? : JsonValue → Option String
  | .string s => some s
  | _ => none

/-- A line number: digits only, and no more than 64 bits. -/
def readLine? : JsonValue → Option UInt64
  | .number text => (Text.readDigits 0 text.toList).toOption.map UInt64.ofNat
  | _ => none

def readLines? : JsonValue → Option (List String)
  | .array items => items.mapM readText?
  | _ => none

/-- The report that a value stands for. Members without a meaning are ignored. -/
def ofJson? (report : JsonValue) : Option ProbeReport := do
  match ← requiredText? report "status" with
  | "found" =>
    let file ← optional? readText? report "file"
    let startLine ← optional? readLine? report "start_line"
    let lines ← optional? readLines? report "lines"
    let representation ← requiredText? report "representation"
    let qualifiedName ← requiredText? report "qualified_name"
    some (.found (file.map Path.mk) startLine lines representation qualifiedName)
  | "missing" => (requiredText? report "message").map .missing
  | "error" => (requiredText? report "message").map .failed
  | _ => none

/-- The location that a report tells. -/
def location (module : ModuleIdentity) : ProbeReport → Except LocateError SymbolLocation
  | found file startLine lines representation qualifiedName =>
    let base : SymbolLocation :=
      match file, startLine, lines with
      | some file, some start, some (line :: rest) => .withSource file start (line :: rest)
      | some file, _, _ => .fileOnly file
      | none, _, _ => .absent
    .ok { base with
      representation := some representation
      qualifiedName := some qualifiedName }
  | missing _ => .ok .absent
  | failed message => .error (.load module.text message)

end ProbeReport

/-- The module path that the interpreter is given: the search path, then what it would inherit.
A directory with a colon in its name cannot be passed on. -/
def probePath (h : Host) (roots : List Path) : Except LocateError String :=
  let inherited := (h.env.modulePath.map (Text.splitOnChar ':')).getD []
  let segments := roots.map Path.text ++ inherited
  if segments.any (·.toList.contains ':') then
    .error (.interpreter "PYTHONPATH" "path segment contains separator `:`")
  else .ok (String.intercalate ":" segments)

/-- The last line of a text, without blanks around it. -/
def lastLine (text : String) : String :=
  let lines := Text.splitOnChar '\n' text
  let lines := if lines.getLast? == some "" then lines.dropLast else lines
  Text.trim (lines.getLastD "")

/-- What is said when a report cannot be used. -/
def unusableReport (o : Shell.Outcome) : String :=
  let detail := lastLine (Text.decodeLossy o.errors)
  "no usable report (exit status " ++ o.ending.text ++ "): " ++
    (if detail == "" then "EOF while parsing a value at line 1 column 0" else detail)

/-- The report of an interpreter on an import target. -/
def runProbe (h : Host) (program : String) (roots : List Path) (r : ResolvedImport) :
    Except LocateError ProbeReport := do
  let path ← probePath h roots
  let inherited := [("PYCTX_LOCATOR", h.env.locator), ("PYCTX_PYTHON", h.env.interpreter)]
  let environment := ("PYTHONPATH", path) :: ("PYTHONDONTWRITEBYTECODE", "1") ::
    inherited.filterMap fun (name, value) => value.map (name, ·)
  match h.run program ["-c", probeScript, r.module.text, r.symbol.getD ""] environment with
  | .error e => .error (.interpreter program ("failed to spawn: " ++ e.message))
  | .ok outcome =>
    let report := JsonValue.parse? (Text.trim (Text.decodeLossy outcome.output))
    match report.bind ProbeReport.ofJson? with
    | some report => .ok report
    | none => .error (.interpreter program (unusableReport outcome))

/-- The location of an import target as an interpreter tells it. -/
def locateByProbe (h : Host) (program : String) (roots : List Path) (r : ResolvedImport) :
    Except LocateError SymbolLocation := do
  (← runProbe h program roots r).location r.module

end ImportContext
