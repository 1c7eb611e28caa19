import ImportContext.Config.Basic
import ImportContext.Toml.Document

/-!
# Reading configuration

A layer from a TOML document. Unknown keys are ignored; a value of the wrong type makes the whole
layer invalid. A table of settings may also be written as an array of its values in order.

Main definition: `Config.ofToml?`.
-/

namespace ImportContext.Config

/-- A setting that may be missing. -/
def optional? {α : Type} (read : TomlValue → Option α) (v : TomlValue) (name : String) :
    Option (Option α) :=
  match v.entry? name with
  | none => some none
  | some v => (read v).map some

/-- A list that may be missing. -/
def list? {α : Type} (read : TomlValue → Option α) (v : TomlValue) (name : String) :
    Option (List α) :=
  match v.entry? name with
  | none => some []
  | some (.array items) => items.mapM read
  | some _ => none

def readText? : TomlValue → Option String
  | .string s => some s
  | _ => none

def readPath? : TomlValue → Option Path
  | .string s => some ⟨s⟩
  | _ => none

def readFlag? : TomlValue → Option Bool
  | .boolean b => some b
  | _ => none

/-- A number that is not negative. -/
def readCount? : TomlValue → Option Nat
  | .integer n => if 0 ≤ n then some n.toNat else none
  | _ => none

/-- A group of settings as a table with the given keys; a missing one is empty. -/
def group? (keys : List String) (v : TomlValue) (name : String) : Option TomlValue :=
  match v.entry? name with
  | none => some (.table [])
  | some (.table entries) => some (.table entries)
  | some (.array items) => some (.table (keys.zip items))
  | some _ => none

def defaultsKeys : List String :=
  ["locator", "format", "code_name", "token_model", "template", "description", "heading_level",
    "skip_when_error", "show_project_tree"]

def readDefaults? (v : TomlValue) : Option BundleDefaults := do
  some {
    locator := ← optional? readText? v "locator"
    format := ← optional? readText? v "format"
    codeName := ← optional? readText? v "code_name"
    tokenModel := ← optional? readText? v "token_model"
    template := ← optional? readText? v "template"
    description := ← optional? readText? v "description"
    headingLevel := ← optional? readCount? v "heading_level"
    skipWhenError := ← optional? readFlag? v "skip_when_error"
    showProjectTree := ← optional? readFlag? v "show_project_tree" }

def filterKeys : List String :=
  ["enabled", "min_last_month_downloads", "ignore_modules", "no_ignore_modules",
    "popular_packages", "downloads_table"]

def readFilter? (v : TomlValue) : Option FilterSettings := do
  some {
    enabled := ← optional? readFlag? v "enabled"
    minDownloads := ← optional? readCount? v "min_last_month_downloads"
    ignoreModules := ← list? readText? v "ignore_modules"
    noIgnoreModules := ← list? readText? v "no_ignore_modules"
    popularPackages := ← list? readText? v "popular_packages"
    downloadsTable := ← optional? readPath? v "downloads_table" }

def readInterpreter? (v : TomlValue) : Option InterpreterSettings := do
  some {
    program := ← optional? readText? v "program"
    searchPaths := ← list? readPath? v "search_paths" }

/-- The focus items of a table of paths. -/
def readFocus? : Option TomlValue → Option FocusItems
  | none => some {}
  | some (.table entries) => do
    let items ← entries.mapM fun (label, v) => (readPath? v).map fun p => (label, p)
    some (.ofList items)
  | some _ => none

/-- The layer that a document describes. -/
def ofToml? (v : TomlValue) : Option Config := do
  some {
    defaults := ← readDefaults? (← group? defaultsKeys v "defaults")
    ignorePatterns := ← list? readText? (← group? ["patterns"] v "ignore") "patterns"
    filter := ← readFilter? (← group? filterKeys v "filter")
    interpreter := ← readInterpreter? (← group? ["program", "search_paths"] v "interpreter")
    focus := ← readFocus? (v.entry? "focus") }

end ImportContext.Config
