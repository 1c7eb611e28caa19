import ImportContext.Path.Basic

/-!
# A file system as a value

Directories hold named entries; links are followed when a path is resolved, at most
`maxLinks` times. Every question about files is a function of this value, and writing gives a
new value.

Main definitions: `FileSystem.entry?` (descent without following links), `FileSystem.resolve`
(the names a path leads to), `FileSystem.isFile`, `FileSystem.isDirectory`,
`FileSystem.readText`, `FileSystem.writeFile`, `FileSystem.createDirectories`.
-/

namespace ImportContext

/-- A named object of the file system. Names are valid Unicode texts: a system may also hold names
that no text spells, and such entries cannot be written here. -/
inductive Entry where
  | file (name : String) (bytes : ByteArray) (executable : Bool)
  | link (name : String) (target : Path)
  | directory (name : String) (children : List Entry)
deriving Inhabited

namespace Entry

def name : Entry → String
  | file n _ _ => n
  | link n _ => n
  | directory n _ => n

def isDirectory : Entry → Bool
  | directory _ _ => true
  | _ => false

/-- The first entry of a list with the given name. -/
def find? (entries : List Entry) (name : String) : Option Entry :=
  entries.find? (·.name == name)

/-- The entries with the one of the same name replaced, or with the new one added at the end. -/
def put (entries : List Entry) (e : Entry) : List Entry :=
  if entries.any (·.name == e.name) then
    entries.map fun old => if old.name == e.name then e else old
  else entries ++ [e]

/-- The entries without those of the given name. -/
def drop (entries : List Entry) (name : String) : List Entry :=
  entries.filter (·.name != name)

/-- The entry below `e` that a list of names leads to, following no link. -/
def descend (e : Entry) : List String → Option Entry
  | [] => some e
  | n :: rest =>
    match e with
    | directory _ children =>
      match find? children n with
      | some next => next.descend rest
      | none => none
    | _ => none

end Entry

/-- Why an operation on files failed. -/
inductive OsError where
  | notFound
  | notExecutable
  | permissionDenied
  | alreadyExists
  | notDirectory
  | isDirectory
  | tooManyLinks
  | emptyPath
  | outOfMemory
  | invalidText
deriving DecidableEq, Repr

/-- The wording of an operating-system error. -/
def OsError.message : OsError → String
  | .notFound => "No such file or directory (os error 2)"
  | .notExecutable => "Exec format error (os error 8)"
  | .permissionDenied => "Permission denied (os error 13)"
  | .alreadyExists => "File exists (os error 17)"
  | .notDirectory => "Not a directory (os error 20)"
  | .isDirectory => "Is a directory (os error 21)"
  | .tooManyLinks => "Too many levels of symbolic links (os error 40)"
  | .emptyPath => "cannot make an empty path absolute"
  | .outOfMemory => "out of memory"
  | .invalidText => "stream did not contain valid UTF-8"

/-- The entries of the root directory. -/
structure FileSystem where
  top : List Entry := []
deriving Inhabited

namespace FileSystem

/-- How many links one path may follow. -/
def maxLinks : Nat := 40

/-- The root directory as an entry. -/
def root (fs : FileSystem) : Entry :=
  .directory "" fs.top

/-- The entry at a list of names, following no link. -/
def entry? (fs : FileSystem) (names : List String) : Option Entry :=
  fs.root.descend names

/-- Follows pieces of a path from the directory at `base`. A link in the middle is always
followed, one at the end only if `follow`; what the last piece names may be missing if `create`.
`jump` goes on from a directory behind a link. -/
def walkPieces (fs : FileSystem) (follow create : Bool)
    (jump : List String → List String → Except OsError (List String)) :
    List String → List String → Except OsError (List String)
  | base, [] => .ok base
  | base, p :: rest =>
    match fs.entry? base with
    | some (.directory _ children) =>
      if p == "" || p == "." then walkPieces fs follow create jump base rest
      else if p == ".." then walkPieces fs follow create jump base.dropLast rest
      else
        match Entry.find? children p with
        | none => if create && rest.isEmpty then .ok (base ++ [p]) else .error .notFound
        | some (.link _ target) =>
          if rest.isEmpty && !follow then .ok (base ++ [p])
          else jump (if target.isAbsolute then [] else base) (target.pieces ++ rest)
        | some _ => walkPieces fs follow create jump (base ++ [p]) rest
    | some _ => .error .notDirectory
    | none => .error .notFound

/-- Follows pieces of a path from a directory, behind at most `budget` links. -/
def walk (fs : FileSystem) (follow create : Bool) :
    Nat → List String → List String → Except OsError (List String)
  | 0 => fs.walkPieces follow create fun _ _ => .error .tooManyLinks
  | budget + 1 => fs.walkPieces follow create (walk fs follow create budget)

/-- The names that an absolute path leads to. -/
def resolve (fs : FileSystem) (follow : Bool) (p : Path) : Except OsError (List String) :=
  if p.text == "" then .error .notFound else fs.walk follow false maxLinks [] p.pieces

/-- The names at which a path leads to an entry or to the place of a missing one. -/
def resolvePlace (fs : FileSystem) (p : Path) : Except OsError (List String) :=
  if p.text == "" then .error .notFound else fs.walk true true maxLinks [] p.pieces

/-- The entry that a path leads to, links followed. -/
def lookup (fs : FileSystem) (p : Path) : Except OsError Entry := do
  let names ← fs.resolve true p
  match fs.entry? names with
  | some e => .ok e
  | none => .error .notFound

def isFile (fs : FileSystem) (p : Path) : Bool :=
  match fs.lookup p with
  | .ok (.file _ _ _) => true
  | _ => false

def isDirectory (fs : FileSystem) (p : Path) : Bool :=
  match fs.lookup p with
  | .ok (.directory _ _) => true
  | _ => false

def exists? (fs : FileSystem) (p : Path) : Bool :=
  match fs.lookup p with
  | .ok _ => true
  | _ => false

def readBytes (fs : FileSystem) (p : Path) : Except OsError ByteArray := do
  match ← fs.lookup p with
  | .file _ bytes _ => .ok bytes
  | _ => .error .isDirectory

/-- How many bytes one text can hold. -/
def maxTextSize : Nat := 0x7fffffffffffffff

/-- The content of a file as text. -/
def readText (fs : FileSystem) (p : Path) : Except OsError String := do
  let bytes ← fs.readBytes p
  if maxTextSize < bytes.size then .error .outOfMemory
  else
    match String.fromUTF8? bytes with
    | some s => .ok s
    | none => .error .invalidText

/-! ## Changes -/

/-- Changes the children of the directory at a list of names; other places stay. -/
def modifyChildren (f : List Entry → List Entry) : List String → List Entry → List Entry
  | [], entries => f entries
  | n :: rest, entries =>
    entries.map fun e =>
      match e with
      | .directory name children =>
        if name == n then .directory name (modifyChildren f rest children) else e
      | _ => e

/-- The file system with the children of one directory changed. -/
def updateDirectory (fs : FileSystem) (names : List String) (f : List Entry → List Entry) :
    FileSystem :=
  ⟨modifyChildren f names fs.top⟩

/-- The directory that holds the last piece of a path, and that piece. -/
def resolveSlot (fs : FileSystem) (p : Path) : Except OsError (List String × String) :=
  match p.fileName?, p.parent? with
  | some name, some dir => do
    let names ← fs.resolve true dir
    match fs.entry? names with
    | some (.directory _ _) => .ok (names, name)
    | some _ => .error .notDirectory
    | none => .error .notFound
  | _, _ => .error .isDirectory

/-- Writes a whole file, creating it if it is missing, behind links too. -/
def writeFile (fs : FileSystem) (p : Path) (bytes : ByteArray) : Except OsError FileSystem :=
  match fs.resolvePlace p with
  | .ok names =>
    match fs.entry? names, names.getLast? with
    | some (.file _ _ executable), some name =>
      .ok (fs.updateDirectory names.dropLast (Entry.put · (.file name bytes executable)))
    | none, some name =>
      .ok (fs.updateDirectory names.dropLast (Entry.put · (.file name bytes false)))
    | _, _ => .error .isDirectory
  | .error .notFound =>
    if p.text.toList.getLast? == some '/' then .error .isDirectory else .error .notFound
  | .error e => .error e

/-- Creates one directory. -/
def makeDirectory (fs : FileSystem) (p : Path) : Except OsError FileSystem := do
  match fs.resolve false p with
  | .ok _ => .error .alreadyExists
  | .error .notFound =>
    let (dir, name) ← fs.resolveSlot p
    -- a link to nothing stands there, and more of the path follows it
    if (fs.entry? (dir ++ [name])).isSome then .error .notFound
    else .ok (fs.updateDirectory dir (Entry.put · (.directory name [])))
  | .error e => .error e

/-- Creates one directory, unless it is there already. -/
def ensureDirectory (fs : FileSystem) (p : Path) : Except OsError Unit × FileSystem :=
  match fs.makeDirectory p with
  | .ok fs => (.ok (), fs)
  | .error e => (if fs.isDirectory p then .ok () else .error e, fs)

/-- Creates a directory with the parents it lacks; `depth` bounds how many. What was created before
a failure stays. -/
def createDirectoriesWithin : Nat → FileSystem → Path → Except OsError Unit × FileSystem
  | 0, fs, _ => (.error .notFound, fs)
  | depth + 1, fs, p =>
    if p.text == "" then (.ok (), fs)
    else
      match fs.makeDirectory p, p.parent? with
      | .error .notFound, some dir =>
        match createDirectoriesWithin depth fs dir with
        | (.ok _, fs) => fs.ensureDirectory p
        | failed => failed
      | .error .notFound, none => (.error .notFound, fs)
      | _, _ => fs.ensureDirectory p

/-- Creates a directory with the parents it lacks. -/
def createDirectories (fs : FileSystem) (p : Path) : Except OsError Unit × FileSystem :=
  createDirectoriesWithin (p.pieces.length + 1) fs p

/-- The file system with a directory and the parents that it lacks, if they can all be created. -/
def makeDirectories (fs : FileSystem) (p : Path) : Except OsError FileSystem :=
  match fs.createDirectories p with
  | (.ok _, fs) => .ok fs
  | (.error e, _) => .error e

/-- Adds a link. -/
def makeLink (fs : FileSystem) (p target : Path) : Except OsError FileSystem := do
  let (dir, name) ← fs.resolveSlot p
  .ok (fs.updateDirectory dir (Entry.put · (.link name target)))

/-- Removes an entry with all that is below it. -/
def remove (fs : FileSystem) (p : Path) : FileSystem :=
  match fs.resolveSlot p with
  | .ok (dir, name) => fs.updateDirectory dir (Entry.drop · name)
  | .error _ => fs

/-- Makes a file executable. -/
def makeExecutable (fs : FileSystem) (p : Path) : FileSystem :=
  match fs.resolve true p with
  | .ok names =>
    match fs.entry? names with
    | some (.file name bytes _) =>
      fs.updateDirectory names.dropLast (Entry.put · (.file name bytes true))
    | _ => fs
  | .error _ => fs

end FileSystem

end ImportContext
