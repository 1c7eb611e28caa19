import ImportContext.Batch.Sources
import ImportContext.Bundle.Build

/-!
# Batches

Bundles of all source files below a directory, one after the other in the order of their paths. A
bundle may be written to a file of its own.

Main definitions: `processFile`, `runBatch`.
-/

namespace ImportContext

structure BatchOptions where
  /-- Patterns, seen from the root, that select the files. -/
  selection : List String := ["**/*.py"]
  /-- Where bundles are written. -/
  outputDir : Option Path := none
deriving DecidableEq, Repr, Inhabited

/-- What became of one file. -/
inductive OutcomeStatus where
  | bundled (diagnostics : Nat) (tokens : Option Nat) (output : Option Path)
  /-- The file does not parse, or one of its imports failed. -/
  | skipped (diagnostic : String)
  | fatal (error : String)
deriving DecidableEq, Repr

structure FileOutcome where
  /-- The file, seen from the root. -/
  path : Path
  status : OutcomeStatus
deriving DecidableEq, Repr

namespace FileOutcome

def isBundled (o : FileOutcome) : Bool :=
  match o.status with
  | .bundled _ _ _ => true
  | _ => false

def isFatal (o : FileOutcome) : Bool :=
  match o.status with
  | .fatal _ => true
  | _ => false

end FileOutcome

/-- Why a text cannot be written. -/
inductive WriteError where
  | directory (path : Path) (cause : OsError)
  | file (path : Path) (cause : OsError)
deriving DecidableEq, Repr

/-- The wording of an error, its cause behind it. -/
def WriteError.message : WriteError → String
  | directory path cause => "failed to create output directory: " ++ path.text ++ ": " ++ cause.message
  | file path cause => "failed to write bundle to " ++ path.text ++ ": " ++ cause.message

/-- Writes a text into a directory that exists. -/
def writeFile (h : Host) (destination : Path) (text : String) : Except WriteError Unit × Host :=
  match h.writeText destination text with
  | .ok h => (.ok (), h)
  | .error e => (.error (.file destination e), h)

/-- Writes a text, with the directories that it needs; those that were created stay even if the text
cannot be written. -/
def writeOutput (h : Host) (destination : Path) (text : String) : Except WriteError Unit × Host :=
  match destination.parent? with
  | none => writeFile h destination text
  | some dir =>
    match h.createDirectories dir with
    | (.ok _, h) => writeFile h destination text
    | (.error e, h) => (.error (.directory dir e), h)

/-- The file that the bundle of a source file is written to. -/
def outputFile (format : BundleFormat) (dir rel : Path) : Path :=
  (dir.join rel).withExtension format.extension

/-- A path as seen from a root. -/
def relativeTo (root path : Path) : Path :=
  (path.stripBase? root).getD path

/-- The status of a file that gives no bundle. -/
def failureStatus (e : BundleError) : OutcomeStatus :=
  match e with
  | .malformed _ _ => .skipped e.message
  | _ => if e.isRecoverable then .skipped e.message else .fatal e.message

/-- Bundles one file and writes the bundle, if it is to be written. -/
def processFile (b : Bundler) (root : Path) (outputDir : Option Path) (h : Host) (path : Path) :
    FileOutcome × Host :=
  let rel := relativeTo root path
  match b.bundle h path with
  | .error e => (⟨rel, failureStatus e⟩, h)
  | .ok bundle =>
    let diagnostics := bundle.diagnostics.length
    match outputDir with
    | none => (⟨rel, .bundled diagnostics bundle.tokens none⟩, h)
    | some dir =>
      let destination := outputFile b.options.format dir rel
      match writeOutput h destination bundle.text with
      | (.ok _, h) => (⟨rel, .bundled diagnostics bundle.tokens (some destination)⟩, h)
      | (.error e, h) => (⟨rel, .fatal e.message⟩, h)

/-- Bundles files one after the other. -/
def processAll (b : Bundler) (root : Path) (outputDir : Option Path) (h : Host) :
    List Path → List FileOutcome × Host
  | [] => ([], h)
  | path :: rest =>
    let (outcome, h) := processFile b root outputDir h path
    let (outcomes, h) := processAll b root outputDir h rest
    (outcome :: outcomes, h)

/-- Why there is no batch. -/
inductive BatchError where
  | notDirectory (root : Path)
  | ignore (cause : IgnoreError)
  | selection (cause : IncludeError)
deriving DecidableEq, Repr

/-- The wording of an error, its cause behind it. -/
def BatchError.message : BatchError → String
  | notDirectory root => "batch root is not a directory: " ++ root.text
  | ignore cause => cause.message
  | selection cause => cause.message

/-- Bundles all selected files below a directory; the outcomes are in the order of the paths. -/
def runBatch (b : Bundler) (h : Host) (root : Path) (options : BatchOptions) :
    Except BatchError (List FileOutcome × Host) := do
  if !h.isDirectory root then .error (.notDirectory root)
  else
    let rules ← (IgnoreRuleSet.ofPatterns b.options.ignorePatterns).mapError .ignore
    let selected ← (IncludeSet.ofPatterns options.selection).mapError .selection
    .ok (processAll b root options.outputDir h (discoverSources h root rules selected))

end ImportContext
