import ImportContext.FileSystem.Host
import ImportContext.Ignore.RuleSet

/-!
# Finding source files

The regular files below a directory that the ignore rules keep and an include pattern selects, in
the order of their paths. How the directory is walked follows the walker of the library `ignore`
(version 0.4): links are not followed, except at the root, and the root `-` is standard input.

Main definitions: `IncludeSet.ofPatterns`, `discoverSources`.
-/

namespace ImportContext

/-- In include patterns `?` and `*` match slashes too. -/
def includeOptions : GlobOptions :=
  { slashIsLiteral := false, openClassIsLiteral := false }

/-- Why a list of include patterns is refused. -/
structure IncludeError where
  pattern : String
  cause : GlobError
deriving DecidableEq, Repr

/-- The wording of an error, its cause behind it. -/
def IncludeError.message (e : IncludeError) : String :=
  "invalid include glob '" ++ e.pattern ++ "': " ++ e.cause.describe e.pattern

/-- Patterns of which one has to match. -/
structure IncludeSet where
  globs : List (List GlobToken)
deriving Inhabited

namespace IncludeSet

/-- The set of some patterns. -/
def ofPatterns (patterns : List String) : Except IncludeError IncludeSet := do
  let globs ← patterns.mapM fun pattern =>
    match parseGlob includeOptions pattern with
    | .ok glob => .ok glob
    | .error e => .error ⟨pattern, e⟩
  .ok ⟨globs⟩

/-- Whether a pattern matches the whole path. -/
def selects (s : IncludeSet) (path : Path) : Bool :=
  s.globs.any fun glob => globMatches includeOptions glob path.text.toUTF8.toList

end IncludeSet

mutual

/-- The regular files at or below an entry that the rules keep, as lists of names. -/
def keptFiles (rules : IgnoreRuleSet) (above : List String) (e : Entry) : List (List String) :=
  match e with
  | .directory name entries =>
    if rules.matchesNames (above ++ [name]) true then []
    else keptFilesOfAll rules (above ++ [name]) entries
  | .file name _ _ =>
    if rules.matchesNames (above ++ [name]) false then [] else [above ++ [name]]
  | .link _ _ => []

/-- The regular files below a directory that the rules keep. -/
def keptFilesOfAll (rules : IgnoreRuleSet) (above : List String) (entries : List Entry) :
    List (List String) :=
  match entries with
  | [] => []
  | e :: rest => keptFiles rules above e ++ keptFilesOfAll rules above rest

end

/-- The files below a directory that the rules keep and the include set selects, in order. A
regular file in place of the directory stands for itself, and the path `-`, however it is written,
stands for no directory. -/
def discoverSources (h : Host) (root : Path) (rules : IgnoreRuleSet) (selected : IncludeSet) :
    List Path :=
  if root.same ⟨"-"⟩ then []
  else
    match h.files.lookup (h.path root) with
    | .ok (.directory _ entries) =>
      let found := (keptFilesOfAll rules [] entries).filter fun names =>
        selected.selects (Path.ofPieces names)
      (found.map fun names => names.foldl Path.child root).mergeSort Path.le
    | .ok (.file _ _ _) => if selected.selects ⟨""⟩ then [root] else []
    | _ => []

end ImportContext
