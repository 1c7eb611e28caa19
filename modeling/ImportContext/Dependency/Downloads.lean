import ImportContext.FileSystem.Host
import ImportContext.Text.Lines
import ImportContext.Text.Number

/-!
# Download tables

How often distributions were downloaded last month, read from tables with a header line, and the
distributions that count as popular in any case. Names are compared in normal form.

Main definitions: `normalizeDistribution`, `DownloadTable.addTable`, `DownloadTable.isPopular`.
-/

namespace ImportContext

def isNameSeparator (c : Char) : Bool :=
  c == '-' || c == '_' || c == '.'

/-- Every run of separators written as one hyphen. -/
def joinSeparators : List Char → List Char
  | [] => []
  | [c] => if isNameSeparator c then ['-'] else [c]
  | c :: d :: rest =>
    if isNameSeparator c then
      if isNameSeparator d then joinSeparators (d :: rest) else '-' :: joinSeparators (d :: rest)
    else c :: joinSeparators (d :: rest)

/-- The normal form of a distribution's name: lower case, one hyphen between its parts. -/
def normalizeDistribution (name : String) : String :=
  Text.asciiLower (String.ofList (joinSeparators (Text.trim name).toList))

/-- Why a table is refused. -/
inductive TableError where
  | missingColumn (name : String)
  | shortRow (line columns : Nat)
  | invalidCount (line : Nat) (text : String) (cause : Text.NumberError)
deriving DecidableEq, Repr

/-- The wording of an error, its cause behind it. -/
def TableError.message : TableError → String
  | missingColumn name => "missing '" ++ name ++ "' column"
  | shortRow line columns =>
    "line " ++ toString line ++ ": expected " ++ toString columns ++ " columns"
  | invalidCount line text cause =>
    "line " ++ toString line ++ ": invalid download count '" ++ text ++ "': " ++ cause.message

/-- Why a table file is refused. -/
inductive TableFileError where
  | unreadable (path : Path) (cause : OsError)
  | invalid (path : Path) (cause : TableError)
deriving DecidableEq, Repr

/-- The wording of an error, its cause behind it. -/
def TableFileError.message : TableFileError → String
  | unreadable path cause =>
    "failed to read downloads table " ++ path.text ++ ": " ++ cause.message
  | invalid path cause => "invalid downloads table " ++ path.text ++ ": " ++ cause.message

/-- Download counts and names that are always popular, all in normal form. -/
structure DownloadTable where
  /-- Counts by name; the first entry of a name is in force. -/
  counts : List (String × Nat) := []
  alwaysPopular : List String := []
deriving DecidableEq, Inhabited

namespace DownloadTable

def ofPopular (names : List String) : DownloadTable :=
  { alwaysPopular := names.map normalizeDistribution }

/-- The fields of a row, without blanks and then quotation marks around them. -/
def rowFields (row : String) : List String :=
  (Text.splitOnChar ',' row).map fun field => Text.trimWhile (· == '"') (Text.trim field)

/-- The name and the count of a row. -/
def readRow (columns nameColumn countColumn line : Nat) (row : String) :
    Except TableError (String × Nat) :=
  let fields := rowFields row
  match fields[nameColumn]?, fields[countColumn]? with
  | some name, some count =>
    match Text.parseNumber count with
    | .ok n => .ok (normalizeDistribution name, n)
    | .error e => .error (.invalidCount line count e)
  | _, _ => .error (.shortRow line columns)

/-- The place of a column in the header. -/
def findColumn (header : List String) (name : String) : Except TableError Nat :=
  match header.findIdx? (· == name) with
  | some i => .ok i
  | none => .error (.missingColumn name)

/-- The rows of a table, in order. Blank lines count for the numbers of lines only. -/
def readTable (text : String) : Except TableError (List (String × Nat)) :=
  let numbered := (Text.plainLines text).zipIdx.filter fun (line, _) => Text.trim line != ""
  match numbered with
  | [] => .ok []
  | (header, _) :: rows => do
    let columns := (Text.splitOnChar ',' header).map Text.trim
    let nameColumn ← findColumn columns "name"
    let countColumn ← findColumn columns "last_month"
    rows.mapM fun (row, i) => readRow columns.length nameColumn countColumn (i + 1) row

/-- The table with the rows of a text added, later ones being in force. -/
def addTable (t : DownloadTable) (text : String) : Except TableError DownloadTable := do
  let rows ← readTable text
  .ok { t with counts := rows.reverse ++ t.counts }

/-- The table with the rows of a file added. -/
def addTableFile (t : DownloadTable) (h : Host) (path : Path) :
    Except TableFileError DownloadTable :=
  match h.readText path with
  | .error e => .error (.unreadable path e)
  | .ok text =>
    match t.addTable text with
    | .ok t => .ok t
    | .error e => .error (.invalid path e)

/-- Whether there is any record of a distribution. -/
def knows (t : DownloadTable) (distribution : String) : Bool :=
  let name := normalizeDistribution distribution
  t.alwaysPopular.contains name || (t.counts.lookup name).isSome

/-- Whether a distribution is popular at the given threshold. -/
def isPopular (t : DownloadTable) (distribution : String) (threshold : Nat) : Bool :=
  let name := normalizeDistribution distribution
  t.alwaysPopular.contains name || (t.counts.lookup name).any (threshold ≤ ·)

end DownloadTable

end ImportContext
