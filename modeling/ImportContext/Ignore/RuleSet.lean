import ImportContext.Glob.Match
import ImportContext.Ignore.Standard
import ImportContext.Path.Basic

/-!
# Ignore rules

A rule is a line of an ignore file. A slash at the front or in the middle anchors it at the root
of the walk, otherwise it holds at any depth; a slash at the end restricts it to directories, and
an exclamation mark at the front negates it. The last rule that matches a path says what becomes
of it; where there is none, the directories above it are asked in turn, up to the root of the walk
(the empty path). Negated patterns are refused, so the order of the patterns is of no consequence.
Apart from that the rules are those of gitignore files.

Main definitions: `IgnoreRule.ofLine`, `IgnoreRuleSet.ofPatterns`, `IgnoreRuleSet.matchesEntry`.
-/

namespace ImportContext

/-- Why a list of patterns is refused. -/
inductive IgnoreError where
  | negationUnsupported (pattern : String)
  | invalidPattern (pattern : String) (cause : GlobError)
deriving DecidableEq, Repr

/-- The wording of an error. -/
def IgnoreError.message : IgnoreError → String
  | negationUnsupported pattern => "negated ignore patterns are not supported: '" ++ pattern ++ "'"
  | invalidPattern pattern cause =>
    "invalid ignore pattern '" ++ pattern ++ "': " ++ cause.describe pattern

/-- In rules `?` and `*` stay within one name. -/
def ruleOptions : GlobOptions :=
  { slashIsLiteral := true, openClassIsLiteral := true }

/-- One rule. A negated rule keeps what it matches. -/
structure IgnoreRule where
  negated : Bool
  onlyDirectories : Bool
  glob : List GlobToken
deriving Inhabited

/-- Whether `cs` ends in `tail`. -/
def endsIn (cs tail : List Char) : Bool :=
  tail.isSuffixOf cs

namespace IgnoreRule

/-- A line without the mark that negates it, and whether it had one. -/
def dropNegation : List Char → List Char × Bool
  | '!' :: rest => (rest, true)
  | line => (line, false)

/-- A line without the mark that protects its first character or anchors it, and whether it is
anchored. -/
def dropMark : List Char → List Char × Bool
  | '\\' :: '!' :: rest => ('!' :: rest, false)
  | '\\' :: '#' :: rest => ('#' :: rest, false)
  | '/' :: rest => (rest, true)
  | line => (line, false)

/-- A line without the slash at its end (and a backslash before that), and whether it had one. -/
def dropDirectoryMark (line : List Char) : List Char × Bool :=
  if endsIn line ['/'] then
    let line := line.dropLast
    (if endsIn line ['\\'] then line.dropLast else line, true)
  else (line, false)

/-- The glob of a line: one without a slash holds at any depth, and one that ends in `/**` does
not match the directory itself. -/
def globOf (anchored : Bool) (line : List Char) : List Char :=
  let glob :=
    if anchored || line.contains '/' || line == ['*', '*'] then line
    else ['*', '*', '/'] ++ line
  if endsIn glob ['/', '*', '*'] then glob ++ ['/', '*'] else glob

/-- The rule of a line; a comment gives none. -/
def ofLine (line : String) : Except GlobError (Option IgnoreRule) :=
  match line.toList with
  | '#' :: _ => .ok none
  | [] => .ok none
  | cs => do
    let (body, negated) := dropNegation cs
    let (body, anchored) := dropMark body
    let (body, onlyDirectories) := dropDirectoryMark body
    let glob ← parseGlob ruleOptions (String.ofList (globOf anchored body))
    .ok (some { negated, onlyDirectories, glob })

/-- Whether the rule itself matches an entry. -/
def «matches» (r : IgnoreRule) (path : List UInt8) (isDirectory : Bool) : Bool :=
  (!r.onlyDirectories || isDirectory) && globMatches ruleOptions r.glob path

end IgnoreRule

/-- The standard rules and those of further patterns. -/
structure IgnoreRuleSet where
  /-- The further patterns, sorted. -/
  extra : List String
  rules : List IgnoreRule
deriving Inhabited

namespace IgnoreRuleSet

/-- The patterns that count: without blanks at the end, not empty, sorted. -/
def keptPatterns (patterns : List String) : List String :=
  ((patterns.map Text.trimEnd).filter (· != "")).mergeSort (fun a b => decide (a ≤ b))

/-- The rules of one pattern. -/
def compile (pattern : String) : Except IgnoreError (List IgnoreRule) :=
  if pattern.toList.head? == some '!' then .error (.negationUnsupported pattern)
  else
    match IgnoreRule.ofLine pattern with
    | .ok rule => .ok rule.toList
    | .error e => .error (.invalidPattern pattern e)

/-- The rule set of further patterns. -/
def ofPatterns (patterns : List String) : Except IgnoreError IgnoreRuleSet := do
  let extra := keptPatterns patterns
  let rules ← (standardPatterns ++ extra).mapM compile
  .ok { extra, rules := rules.flatten }

/-- The rule that decides about one place, given by names: the last of those that match it. -/
def ruleHere? (rules : IgnoreRuleSet) (names : List String) (isDirectory : Bool) :
    Option IgnoreRule :=
  let path := (String.intercalate "/" names).toUTF8.toList
  rules.rules.reverse.find? (·.matches path isDirectory)

/-- The rule that decides about the nearest directory above for which there is one, the names
being innermost first. -/
def ruleAbove? (rules : IgnoreRuleSet) : List String → Option IgnoreRule
  | [] => none
  | _ :: above => (rules.ruleHere? above.reverse true).or (rules.ruleAbove? above)

/-- Whether the entry at a list of names is ignored, by itself or through a directory above it.
The root itself is not. -/
def matchesNames (rules : IgnoreRuleSet) (names : List String) (isDirectory : Bool) : Bool :=
  match names with
  | [] => false
  | _ =>
    match (rules.ruleHere? names isDirectory).or (rules.ruleAbove? names.reverse) with
    | some rule => !rule.negated
    | none => false

/-- Whether an entry is ignored; only the ordinary names of its path count. -/
def matchesEntry (rules : IgnoreRuleSet) (path : Path) (isDirectory : Bool) : Bool :=
  rules.matchesNames path.names isDirectory

/-- Whether a file is ignored. -/
def «matches» (rules : IgnoreRuleSet) (path : Path) : Bool :=
  rules.matchesEntry path false

end IgnoreRuleSet

end ImportContext
