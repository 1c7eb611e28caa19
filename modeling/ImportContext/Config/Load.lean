import ImportContext.Config.Reader

/-!
# Loading configuration

The layers in force: the built-in one, the file in the directory of global settings, the file of
the workspace, and a file that is named explicitly. The environment comes last.

Main definition: `Config.load`.
-/

namespace ImportContext

/-- Why a configuration cannot be loaded. -/
inductive ConfigError where
  | missing (path : Path)
  | unreadable (path : Path) (cause : OsError)
  /-- The file is no TOML document, or not one of settings. -/
  | invalid (path : Path)
deriving DecidableEq, Repr

/-- The wording of an error, its causes behind it. The placeholder `<toml>` stands for what is said
of the document and the place in it. -/
def ConfigError.message : ConfigError → String
  | missing path => "config file not found: " ++ path.text
  | unreadable path cause => "failed to read config file: " ++ path.text ++ ": " ++ cause.message
  | invalid path =>
    "invalid config file: " ++ path.text ++ ": failed to parse TOML config: <toml>"

namespace Config

/-- The layer of a file. -/
def ofFile (h : Host) (path : Path) : Except ConfigError Config :=
  match h.readText path with
  | .error e => .error (.unreadable path e)
  | .ok text =>
    match (parseToml? text).bind ofToml? with
    | none => .error (.invalid path)
    | some c => .ok (c.anchored (path.parent?.getD ⟨""⟩))

/-- The nearest directory, from some names upwards, that holds a repository. The names are
innermost first. -/
def repositoryAbove (h : Host) : List String → Option Path
  | [] => if h.exists? ⟨"/.git"⟩ then some ⟨"/"⟩ else none
  | name :: above =>
    let dir := Path.ofNames (name :: above).reverse
    if h.exists? (dir.child ".git") then some dir else repositoryAbove h above

/-- The file of the workspace: at the root of the repository, or in the current directory. -/
def workspaceFile (h : Host) : Path :=
  ((repositoryAbove h h.cwd.names.reverse).getD h.cwd).child ".pyctx/config.toml"

/-- The file of global settings. -/
def globalFile (h : Host) : Path :=
  h.configHome.child "pyctx/config.toml"

/-- The files of all layers that exist, in order. -/
def layerFiles (h : Host) (explicit : Option Path) : List Path :=
  ([globalFile h, workspaceFile h] ++ explicit.toList).filter h.exists?

/-- The configuration in force. -/
def load (h : Host) (explicit : Option Path) : Except ConfigError Config := do
  match explicit.filter (!h.isFile ·) with
  | some path => .error (.missing path)
  | none =>
    let layers ← (layerFiles h explicit).mapM (ofFile h)
    .ok ((layers.foldl merge builtin).withEnvironment h.env)

end Config

end ImportContext
