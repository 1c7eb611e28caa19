import ImportContext.Batch.Run
import ImportContext.CommandLine.Command
import ImportContext.Json.Printer

/-!
# What commands print

Results as lines of text and as JSON documents.
-/

namespace ImportContext

/-! ## JSON documents -/

namespace JsonValue

def path (p : Path) : JsonValue :=
  string p.text

def optionalText (s : Option String) : JsonValue :=
  optional string s

end JsonValue

section Documents

open JsonValue

def ImportDeclaration.toJson : ImportDeclaration → JsonValue
  | .plain d => object [
      ("kind", string "plain"),
      ("module_path", string d.modulePath),
      ("alias", optionalText d.asName),
      ("line", nat d.pos.line),
      ("column", nat d.pos.column)]
  | .member d => object [
      ("kind", string "from"),
      ("module_path", string d.modulePath),
      ("symbol_name", string d.symbol),
      ("alias", optionalText d.asName),
      ("relative_depth", nat d.depth),
      ("line", nat d.pos.line),
      ("column", nat d.pos.column)]

def SymbolLocation.toJson (l : SymbolLocation) : JsonValue :=
  object [
    ("defining_file", optional path l.file),
    ("start_line", optional (fun n => nat n.toNat) l.startLine),
    ("end_line", optional (fun n => nat n.toNat) l.endLine),
    ("source_text", optionalText l.sourceText),
    ("representation", optionalText l.representation),
    ("qualified_name", optionalText l.qualifiedName)]

def ImportSection.toJson (s : ImportSection) : JsonValue :=
  object [
    ("declaration", s.declaration.toJson),
    ("target", optionalText (s.target.map ModuleIdentity.text)),
    ("location", s.location.toJson),
    ("diagnostic", optionalText s.diagnostic)]

def Diagnostic.toJson (d : Diagnostic) : JsonValue :=
  object [("statement", string d.statement), ("line", nat d.line), ("message", string d.message)]

def Bundle.toJson (b : Bundle) : JsonValue :=
  object [
    ("source_file", path b.sourceFile),
    ("identity", string b.identity.text),
    ("text", string b.text),
    ("sections", array (b.sections.map ImportSection.toJson)),
    ("diagnostics", array (b.diagnostics.map Diagnostic.toJson)),
    ("tokens", optional nat b.tokens)]

/-- The members that tell what became of a file. -/
def OutcomeStatus.jsonMembers : OutcomeStatus → List (String × JsonValue)
  | bundled diagnostics tokens output => [
      ("status", string "bundled"),
      ("diagnostics", nat diagnostics),
      ("tokens", optional nat tokens),
      ("output", optional path output)]
  | skipped diagnostic => [("status", string "skipped"), ("diagnostic", string diagnostic)]
  | fatal error => [("status", string "fatal"), ("error", string error)]

def FileOutcome.toJson (o : FileOutcome) : JsonValue :=
  object (("path", JsonValue.path o.path) :: o.status.jsonMembers)

end Documents

/-! ## Lines -/

/-- The position of a declaration and its statement. -/
def ImportDeclaration.line (d : ImportDeclaration) : String :=
  toString d.pos.line ++ ":" ++ toString d.pos.column ++ "\t" ++ d.text ++ "\n"

/-- A count of tokens, as far as it can be told. -/
def tokensText : Option Nat → String
  | some n => toString n
  | none => "?"

/-- The columns that tell what became of a file. -/
def OutcomeStatus.columns : OutcomeStatus → String × String
  | bundled diagnostics tokens _ =>
    ("bundled", tokensText tokens ++ " tokens, " ++ toString diagnostics ++ " diagnostics")
  | skipped diagnostic => ("skipped", diagnostic)
  | fatal error => ("fatal", error)

/-- What became of a file, in three columns. -/
def FileOutcome.line (o : FileOutcome) : String :=
  let (status, detail) := o.status.columns
  status ++ "\t" ++ o.path.text ++ "\t" ++ detail ++ "\n"

/-- The identity of a module and the directories that it is counted from. -/
def ModuleLocation.report (l : ModuleLocation) : String :=
  l.identity.text ++ "\nroot: " ++ l.root.text ++ "\nrelative: " ++ l.relativeFile.text ++
    "\ntop-level: " ++ l.topLevelDir.text ++ "\n"

/-! ## Usage -/

/-- How the program is called. -/
def usageText : String :=
  "Usage: pyctx [OPTIONS] <COMMAND>\n\nCommands: " ++ String.intercalate ", " commandNames ++ "\n"

/-- What is shown when arguments cannot be read. -/
def UsageError.message : UsageError → String
  | help => usageText
  | version => "pyctx\n"
  | nothingGiven => usageText
  | invalidValue => "error: invalid or missing value\n"
  | malformedValue => "error: malformed value\n"
  | surplusValue => "error: a value for an option that takes none\n"
  | repeated => "error: an option was given more than once\n"
  | unknownArgument => "error: unexpected argument\n"
  | missingOperand => "error: a required argument was not provided\n"
  | unknownCommand => "error: unrecognized subcommand\n"
  | missingCommand => "error: a subcommand is required\n"

/-- Whether the program was asked for what is shown. -/
def UsageError.wasAsked : UsageError → Bool
  | help => true
  | version => true
  | _ => false

/-! ## Completions -/

/-- The words that a command line can hold, apart from values. -/
def commandWords : List String :=
  (commandNames ++ (commandSpecs.flatMap (·.2.options)).map ("--" ++ ·.name)).eraseDups

/-- A script that makes a shell complete the words of the program. -/
def CompletionShell.script (shell : CompletionShell) : String :=
  let words := String.intercalate " " commandWords
  match shell with
  | bash => "complete -W \"" ++ words ++ "\" pyctx\n"
  | fish => "complete -c pyctx -f -a \"" ++ words ++ "\"\n"
  | zsh => "compdef \"_arguments \x27*:word:(" ++ words ++ ")\x27\" pyctx\n"
  | elvish => "set edit:completion:arg-completer[pyctx] = \x7b|@typed| put " ++ words ++ " \x7d\n"
  | powershell =>
    "Register-ArgumentCompleter -Native -CommandName pyctx -ScriptBlock \x7b " ++
      String.intercalate ", " (commandWords.map fun w => "\x27" ++ w ++ "\x27") ++ " \x7d\n"

end ImportContext
