import ImportContext.Ignore.RuleSet
import ImportContext.Tree.Focus
import ImportContext.Tree.Node

/-!
# Building project trees

The tree of a directory holds what the ignore rules keep, in the order of names. A walk gives the
places that are not ignored one by one, and the tree is put together from them. Links are not
followed, and directories that would be empty are left out.

Main definitions: `Entry.places`, `TreeNode.insert`, `TreeNode.assemble`, `buildTree`.
-/

namespace ImportContext

/-- Why there is no tree. -/
inductive TreeError where
  | focusOutside (label : String) (path root : Path)
  | unreadable (path : Path) (cause : OsError)
deriving DecidableEq, Repr

/-- The wording of an error, its causes behind it. -/
def TreeError.message : TreeError → String
  | focusOutside label path root =>
    "focus item '" ++ label ++ "' (" ++ path.text ++ ") is not within " ++ root.text
  | unreadable path cause => "failed to walk " ++ path.text ++ ": " ++ cause.message

/-! ## The walk -/

/-- A place that a walk comes to, by its names from the root of the walk. -/
structure Place where
  names : List String
  isDirectory : Bool
deriving DecidableEq, Repr

mutual

/-- The places of an entry and of those below it that are not ignored; `depth` bounds how many
levels below are walked. An ignored directory is not entered. -/
def Entry.places (rules : IgnoreRuleSet) (depth : Option Nat) (above : List String) (e : Entry) :
    List Place :=
  match e with
  | .directory name entries =>
    if rules.matchesNames (above ++ [name]) true then []
    else ⟨above ++ [name], true⟩ :: placesOfAll rules depth (above ++ [name]) entries
  | .file name _ _ =>
    if rules.matchesNames (above ++ [name]) false then [] else [⟨above ++ [name], false⟩]
  | .link name _ =>
    if rules.matchesNames (above ++ [name]) false then [] else [⟨above ++ [name], false⟩]

/-- The places of the entries of one directory and of those below them. -/
def Entry.placesOfAll (rules : IgnoreRuleSet) (depth : Option Nat) (above : List String)
    (entries : List Entry) : List Place :=
  match entries with
  | [] => []
  | e :: rest =>
    match depth with
    | some 0 => []
    | _ => e.places rules (depth.map (· - 1)) above ++ placesOfAll rules depth above rest

end

/-! ## Putting the tree together -/

namespace TreeNode

/-- Changes the node of the given name, or puts a new one in its place in the order of names. -/
def alter (name : String) (f : Option TreeNode → TreeNode) : List TreeNode → List TreeNode
  | [] => [f none]
  | t :: ts =>
    if name = t.name then f (some t) :: ts
    else if name < t.name then f none :: t :: ts
    else t :: alter name f ts

/-- The node for the first name of a place, `rest` being the further names and `below` what adds
them to the children. A node that is there already stays, and below a file nothing is added. -/
def grow (isDirectory : Bool) (name : String) (rest : List String)
    (below : List TreeNode → List TreeNode) : Option TreeNode → TreeNode
  | some (.directory name label children) => .directory name label (below children)
  | some (.file name label) => .file name label
  | none =>
    if rest.isEmpty && !isDirectory then .file name none
    else .directory name none (below [])

/-- The nodes with one at the given names added, and with the directories that lead there. -/
def insert (isDirectory : Bool) : List String → List TreeNode → List TreeNode
  | [], ts => ts
  | n :: rest, ts => alter n (grow isDirectory n rest (insert isDirectory rest)) ts

mutual

/-- A node with the labels of its places; a directory without children is left out. -/
def finish (labelOf : List String → Option String) (above : List String) (t : TreeNode) :
    List TreeNode :=
  match t with
  | .file name _ => [.file name (labelOf (above ++ [name]))]
  | .directory name _ children =>
    match finishAll labelOf (above ++ [name]) children with
    | [] => []
    | t :: ts => [.directory name (labelOf (above ++ [name])) (t :: ts)]

/-- The nodes of one directory with their labels. -/
def finishAll (labelOf : List String → Option String) (above : List String)
    (ts : List TreeNode) : List TreeNode :=
  match ts with
  | [] => []
  | t :: ts => t.finish labelOf above ++ finishAll labelOf above ts

end

/-- The nodes of some places, which may come in any order. -/
def assemble (labelOf : List String → Option String) (places : List Place) : List TreeNode :=
  finishAll labelOf [] (places.foldl (fun ts p => insert p.isDirectory p.names ts) [])

end TreeNode

/-- The name of a tree's root: its file name, or its path when it has none. -/
def rootName (root : Path) : String :=
  root.fileName?.getD root.text

/-- The tree of a path, at most `depth` levels deep. -/
def buildTree (h : Host) (dir : Path) (rules : IgnoreRuleSet) (focus : FocusItems)
    (depth : Option Nat) : Except TreeError TreeNode :=
  let root := h.normalize dir
  match h.files.lookup root with
  | .error e => .error (.unreadable root e)
  | .ok e =>
    match focus.outside? h root with
    | some (label, path) => .error (.focusOutside label path root)
    | none =>
      let labelOf := focus.labelBelow h root
      match e with
      | .directory _ entries =>
        let nodes := TreeNode.assemble labelOf (Entry.placesOfAll rules depth [] entries)
        .ok (.directory (rootName root) (labelOf []) nodes)
      | _ => .ok (.file (rootName root) (labelOf []))

end ImportContext
