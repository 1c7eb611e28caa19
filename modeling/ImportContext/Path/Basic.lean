import ImportContext.Text.Blank

/-!
# Paths

A path is kept as it was written; two paths name the same place when their components agree.
Empty pieces and inner `.` pieces are no components, so `a//./b/` has the components of `a/b`.

Main definitions: `Path.components`, `Path.join`, `Path.parent?`, `Path.stripBase?`,
`Path.normalize`.
-/

namespace ImportContext

/-- A path as it was written, with `/` between its pieces. It is a valid Unicode text, so that
showing a path loses nothing; paths with bytes that no text spells cannot be written here. -/
structure Path where
  text : String
deriving DecidableEq, Repr, Inhabited

namespace Path

/-- One step of a path. -/
inductive Component where
  /-- The leading slash of an absolute path. -/
  | root
  /-- A leading `.`. -/
  | here
  /-- A `..`. -/
  | up
  /-- An ordinary name. -/
  | name (s : String)
deriving DecidableEq, Repr

/-- The pieces between slashes, empty ones included. -/
def pieces (p : Path) : List String :=
  Text.splitOnChar '/' p.text

def isAbsolute (p : Path) : Bool :=
  p.text.toList.head? == some '/'

/-- A piece that is no component of its own. -/
def isIdle (piece : String) : Bool :=
  piece == "" || piece == "."

/-- The component that a piece stands for after the first one. -/
def component? (piece : String) : Option Component :=
  if isIdle piece then none
  else if piece == ".." then some .up
  else some (.name piece)

/-- The components of a path, in order. -/
def components (p : Path) : List Component :=
  if p.isAbsolute then .root :: p.pieces.tail.filterMap component?
  else if p.pieces.head? == some "." then .here :: p.pieces.tail.filterMap component?
  else p.pieces.filterMap component?

/-- Whether two paths have the same components. -/
def same (p q : Path) : Bool :=
  p.components == q.components

/-- `p` followed by `q`; an absolute `q` replaces `p`. -/
def join (p q : Path) : Path :=
  if q.isAbsolute || p.text == "" then q
  else if p.text.toList.getLast? == some '/' then ⟨p.text ++ q.text⟩
  else ⟨p.text ++ "/" ++ q.text⟩

/-- `p` followed by one piece. -/
def child (p : Path) (piece : String) : Path :=
  p.join ⟨piece⟩

/-- The absolute path with the given names. -/
def ofNames (names : List String) : Path :=
  ⟨"/" ++ String.intercalate "/" names⟩

/-- Pieces written with slashes between them. -/
def ofPieces (ps : List String) : Path :=
  ⟨String.intercalate "/" ps⟩

/-- Drops idle pieces from the end. -/
def dropIdleEnd (ps : List String) : List String :=
  (ps.reverse.dropWhile isIdle).reverse

/-- The pieces before the last component. -/
def dropLastPiece (ps : List String) : List String :=
  dropIdleEnd (dropIdleEnd ps).dropLast

/-- What is written before the last component of a path, if that is not the root. -/
def withoutLast (p : Path) : Path :=
  if p.isAbsolute then
    match dropLastPiece p.pieces.tail with
    | [] => ⟨"/"⟩
    | ps => ⟨"/" ++ (ofPieces ps).text⟩
  else if p.pieces.head? == some "." then
    match dropIdleEnd p.pieces.tail, dropLastPiece p.pieces.tail with
    | [], _ => ⟨""⟩
    | _, ps => ofPieces ("." :: ps)
  else ofPieces (dropLastPiece p.pieces)

/-- The path without its last component; the root and the empty path have no parent. -/
def parent? (p : Path) : Option Path :=
  match p.components.getLast? with
  | none => none
  | some .root => none
  | some _ => some p.withoutLast

/-- The last component when it is an ordinary name. -/
def fileName? (p : Path) : Option String :=
  match p.components.getLast? with
  | some (.name s) => some s
  | _ => none

/-- Whether `base` is a path prefix of `p`, component by component. -/
def startsWith (p base : Path) : Bool :=
  base.components.isPrefixOf p.components

/-- What remains of pieces after the first `n` components. -/
def dropComponents : Nat → List String → List String
  | 0, ps => ps.dropWhile isIdle
  | _ + 1, [] => []
  | n + 1, p :: ps => if isIdle p then dropComponents (n + 1) ps else dropComponents n ps

/-- What remains of `p` below `base`. -/
def stripBase? (p base : Path) : Option Path :=
  if p.startsWith base then
    match base.components with
    | [] => some (if p.isAbsolute then ⟨"/" ++ (ofPieces (dropIdleEnd p.pieces.tail)).text⟩
        else ofPieces (dropIdleEnd p.pieces))
    | first :: rest =>
      let (n, ps) := match first with
        | .root => (rest.length, p.pieces.tail)
        | .here => (rest.length, p.pieces.tail)
        | _ => (rest.length + 1, p.pieces)
      some (ofPieces (dropIdleEnd (dropComponents n ps)))
  else none

/-- The ordinary names among the components. -/
def names (p : Path) : List String :=
  p.components.filterMap fun
    | .name s => some s
    | _ => none

/-- A file name cut at its last dot: the stem and what follows the dot. A leading dot cuts
nothing, so `.profile` is all stem. -/
def splitExtension (name : String) : String × Option String :=
  let cs := name.toList
  let after := cs.reverse.takeWhile (· != '.')
  let before := (cs.reverse.dropWhile (· != '.')).drop 1
  if name == ".." || !cs.contains '.' || before.isEmpty then (name, none)
  else (String.ofList before.reverse, some (String.ofList after.reverse))

def stem (name : String) : String :=
  (splitExtension name).1

/-- A file name that ends a path, with its extension replaced (or added). The old extension is cut
off first. Of a name such as `..py` this leaves `..`, which is no file name and stays as it is. -/
def replaceExtension (name ext : String) : String :=
  if stem name == "." then ".." else stem name ++ "." ++ ext

/-- The path with the extension of its file name replaced (or added). Behind idle pieces at the end
of the path, which are cut off together with the old extension, every name gets the new one. -/
def withExtension (p : Path) (ext : String) : Path :=
  match p.fileName? with
  | none => p
  | some name =>
    let last :=
      if p.pieces.getLast? == some name then replaceExtension name ext
      else stem name ++ "." ++ ext
    ofPieces ((dropIdleEnd p.pieces).dropLast ++ [last])

/-! ## Order -/

/-- Where a kind of component stands in the order of components. -/
def Component.rank : Component → Nat
  | .root => 0
  | .here => 1
  | .up => 2
  | .name _ => 3

def Component.le : Component → Component → Bool
  | .name a, .name b => decide (a ≤ b)
  | a, b => a.rank ≤ b.rank

/-- Component lists in dictionary order. -/
def lexLe : List Component → List Component → Bool
  | [], _ => true
  | _ :: _, [] => false
  | a :: as, b :: bs => if a = b then lexLe as bs else a.le b

/-- Paths in dictionary order of their components. -/
def le (p q : Path) : Bool :=
  lexLe p.components q.components

/-! ## Lexical normal form -/

/-- One component applied to the names read so far (innermost first). -/
def stackStep (stack : List String) : Component → List String
  | .root => []
  | .here => stack
  | .up => stack.tail
  | .name s => s :: stack

/-- The names reached by following components from the root, without looking at any file. -/
def followNames (cs : List Component) : List String :=
  (cs.foldl stackStep []).reverse

/-- `p` seen from the directory `cwd`. The empty path stays empty. -/
def absolute (cwd p : Path) : Path :=
  if p.text == "" then p else cwd.join p

/-- The path made absolute, with `.` and `..` removed lexically. -/
def normalize (cwd p : Path) : Path :=
  if p.text == "" then p else ofNames (followNames (absolute cwd p).components)

end Path

end ImportContext
