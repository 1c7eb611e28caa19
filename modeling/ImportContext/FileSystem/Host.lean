import ImportContext.Shell.Run

/-!
# The host of a run

Everything outside the program that a run can see: the files, the current directory, the
directory of global settings, the environment variables that are read, and what comes of calling
another program.
-/

namespace ImportContext

/-- The environment variables that are read. -/
structure Environment where
  locator : Option String := none
  interpreter : Option String := none
  modulePath : Option String := none
deriving Inhabited

/-- The world that a run sees. -/
structure Host where
  files : FileSystem := {}
  cwd : Path := ⟨"/"⟩
  /-- The directory that holds global settings. -/
  configHome : Path := ⟨"/"⟩
  env : Environment := {}
  /-- What comes of calling a program. By default programs are scripts of the shell, but a host may
  answer calls as it likes. -/
  execute : Shell.Call → Except OsError Shell.Outcome := Shell.execute

instance : Inhabited Host := ⟨{}⟩

namespace Host

/-- A path seen from the current directory. -/
def path (h : Host) (p : Path) : Path :=
  Path.absolute h.cwd p

def isFile (h : Host) (p : Path) : Bool :=
  h.files.isFile (h.path p)

def isDirectory (h : Host) (p : Path) : Bool :=
  h.files.isDirectory (h.path p)

def exists? (h : Host) (p : Path) : Bool :=
  h.files.exists? (h.path p)

def readText (h : Host) (p : Path) : Except OsError String :=
  h.files.readText (h.path p)

/-- Writes a text file, creating it if it is missing. -/
def writeText (h : Host) (p : Path) (text : String) : Except OsError Host :=
  (h.files.writeFile (h.path p) text.toUTF8).map fun files => { h with files }

/-- Creates a directory with the parents it lacks; what was created before a failure stays. -/
def createDirectories (h : Host) (p : Path) : Except OsError Unit × Host :=
  let (result, files) := h.files.createDirectories (h.path p)
  (result, { h with files })

/-- The path made absolute, with `.` and `..` removed lexically. -/
def normalize (h : Host) (p : Path) : Path :=
  Path.normalize h.cwd p

/-- Calls a program from the current directory. -/
def run (h : Host) (program : String) (args : List String)
    (environment : List (String × String)) : Except OsError Shell.Outcome :=
  h.execute { files := h.files, cwd := h.cwd, program, args, environment }

end Host

end ImportContext
