import ImportContext.CommandLine.Run
import ImportContext.FileSystem.Changes

/-!
# The program

Takes a picture of the files that a run may look at, runs the command on it, and writes back what
changed.
-/

namespace ImportContext.Program

/-- What a link leads to that leads nowhere: no file has this name. -/
def nowhere : Path := ⟨"/\x00"⟩

/-- Scripts are programs. -/
def isScript (bytes : ByteArray) : Bool :=
  bytes.toList.take 2 == [35, 33]

/-- An entry of a directory, with all that is below it if `deep`. -/
partial def readEntry (deep : Bool) (e : IO.FS.DirEntry) : IO (List Entry) := do
  let name := e.fileName
  try
    match (← e.path.symlinkMetadata).type with
    | .dir =>
      if deep then
        let below ← (← e.path.readDir).toList.mapM (readEntry deep)
        return [.directory name below.flatten]
      else return [.directory name []]
    | .symlink =>
      try
        return [.link name ⟨(← IO.FS.realPath e.path).toString⟩]
      catch _ => return [.link name nowhere]
    | .file =>
      let bytes ← IO.FS.readBinFile e.path
      return [.file name bytes (isScript bytes)]
    | .other => return []
  catch _ => return []

/-- Adds the entries of a directory, unless they are there already. -/
def addDirectory (deep : Bool) (fs : FileSystem) (dir : Path) : IO FileSystem := do
  try
    let found ← ((← IO.currentDir) / dir.text).readDir
    let entries := (← found.toList.mapM (readEntry deep)).flatten
    let fs := (fs.makeDirectories dir).toOption.getD fs
    let add (old : List Entry) (e : Entry) : List Entry :=
      if deep || (Entry.find? old e.name).isNone then Entry.put old e else old
    return fs.updateDirectory dir.names (entries.foldl add)
  catch _ => return fs

/-- The directories from the root down to a path, the path itself included. -/
def ancestry (p : Path) : List Path :=
  (List.range (p.names.length + 1)).map fun n => Path.ofNames (p.names.take n)

/-- Adds a directory with all that is below it, and the directories above it. -/
def addPlace (fs : FileSystem) (dir : Path) : IO FileSystem := do
  addDirectory true (← (ancestry dir).foldlM (addDirectory false) fs) dir

/-- The directory of settings of the user. -/
def findConfigHome : IO Path := do
  match ← IO.getEnv "XDG_CONFIG_HOME", ← IO.getEnv "HOME" with
  | some dir, _ => return ⟨dir⟩
  | none, some home => return (Path.mk home).child ".config"
  | none, none => return ⟨"/"⟩

/-- The places that an argument can name: a directory, or the directory around a file. -/
def placesOf (cwd : Path) (arg : String) : List Path :=
  let p := Path.normalize cwd ⟨arg⟩
  if arg == "" || looksLikeOption arg then [] else [p, p.parent?.getD p]

/-- The files that a run with these arguments may look at. -/
def readHost (args : List String) : IO Host := do
  let cwd : Path := ⟨(← IO.currentDir).toString⟩
  let configHome ← findConfigHome
  let places := cwd :: configHome.child "pyctx" :: args.flatMap (placesOf cwd)
  let outside := places.filter fun p => p.text != "/" && (p == cwd || !p.startsWith cwd)
  let files ← outside.foldlM addPlace {}
  return {
    files
    cwd
    configHome
    env := ⟨← IO.getEnv "PYCTX_LOCATOR", ← IO.getEnv "PYCTX_PYTHON", ← IO.getEnv "PYTHONPATH"⟩ }

/-- Adds the search paths of the configuration. -/
def withSearchPaths (i : Invocation) (h : Host) : IO Host := do
  match Config.load h i.config with
  | .error _ => return h
  | .ok c =>
    let dirs := c.interpreter.searchPaths.map h.normalize
    return { h with files := ← (dirs.filter (!·.startsWith h.cwd)).foldlM addPlace h.files }

/-- Carries out one step. -/
def perform : Change → IO Unit
  | .makeDirectory p => IO.FS.createDirAll ⟨p.text⟩
  | .writeFile p bytes => IO.FS.writeBinFile ⟨p.text⟩ bytes

/-- Runs a command and returns its exit code. -/
def execute (i : Invocation) (args : List String) : IO UInt32 := do
  let h ← withSearchPaths i (← readHost args)
  let r := i.run h
  IO.print r.stdout
  (h.files.changesTo r.host.files).forM perform
  match r.failure with
  | none => return 0
  | some e =>
    IO.eprintln ("Error: " ++ e.message)
    return 1

end ImportContext.Program

open ImportContext in
def main (args : List String) : IO UInt32 := do
  match parseInvocation args with
  | .ok i => Program.execute i args
  | .error e =>
    if e.wasAsked then
      IO.print e.message
      return 0
    else
      IO.eprint e.message
      return 2
