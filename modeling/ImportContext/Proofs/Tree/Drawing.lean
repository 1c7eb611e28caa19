import Mathlib.Data.List.Infix
import ImportContext.Proofs.Tree.Nodes
import ImportContext.Text.Blank

/-!
# Reading a drawn tree

The text of a tree tells its names, its labels and which nodes are below which. A connector begins
every line but the first and is told by its first character from what is drawn below it, so the
lines of the children of a node fall into blocks, whatever names they hold. What a text does not
tell is whether a node without children is a file or a directory.

Results:
* `caption_inj`: a caption tells the name and the label.
* `drawnBelow_append_inj`: the first block of some lines tells what is drawn in it.
* `withoutKindsAll_eq_of_childLines`: the lines of some nodes tell the nodes.
* `render_eq_iff`: which trees have the same text.
-/

namespace ImportContext

namespace TreeNode

/-! ## Captions -/

/-- What stands between a name and its label. -/
def labelMark : List Char := [' ', '<', '-', '-', ' ', '(']

/-- A name and a label can be read back from the caption they make: neither breaks the line, and
no part of the name looks like the beginning of a label. -/
structure LegibleCaption (name : String) (label : Option String) : Prop where
  name_line : '\n' ∉ name.toList
  label_line : ∀ l ∈ label, '\n' ∉ l.toList
  name_mark : ¬ labelMark <:+: name.toList

instance (name : String) (label : Option String) : Decidable (LegibleCaption name label) :=
  decidable_of_iff ('\n' ∉ name.toList ∧ (∀ l ∈ label, '\n' ∉ l.toList) ∧
    ¬ labelMark <:+: name.toList)
    ⟨fun ⟨h₁, h₂, h₃⟩ => ⟨h₁, h₂, h₃⟩, fun ⟨h₁, h₂, h₃⟩ => ⟨h₁, h₂, h₃⟩⟩

theorem toList_caption_none (name : String) : (caption name none).toList = name.toList := rfl

theorem toList_caption_some (name label : String) :
    (caption name (some label)).toList = name.toList ++ (labelMark ++ (label.toList ++ [')'])) := by
  rw [caption, String.toList_append, String.toList_append, String.toList_append,
    List.append_assoc, List.append_assoc]
  rfl

/-- A caption is one line. -/
theorem LegibleCaption.caption_line {name : String} {label : Option String}
    (h : LegibleCaption name label) : '\n' ∉ (caption name label).toList := by
  cases label with
  | none => exact h.name_line
  | some l =>
    rw [toList_caption_some]
    simp [h.name_line, h.label_line l rfl, labelMark]

/-- The mark does not begin inside itself: behind other characters it is found at the head of a
text that begins with it only if those characters hold it as a whole. -/
theorem mark_isInfix_of_append {front back back' : List Char} (hne : front ≠ [])
    (h : labelMark ++ back = front ++ (labelMark ++ back')) : labelMark <:+: front := by
  by_cases hlong : labelMark.length ≤ front.length
  · have hprefix : labelMark <+: front :=
      List.prefix_of_prefix_length_le ⟨back, h⟩ (List.prefix_append front _) hlong
    exact hprefix.isInfix
  · -- The characters of the mark are compared with a shift by one to five places.
    exfalso
    match front, hne, hlong, h with
    | [_], _, _, h => simp [labelMark] at h
    | [_, _], _, _, h => simp [labelMark] at h
    | [_, _, _], _, _, h => simp [labelMark] at h
    | [_, _, _, _], _, _, h => simp [labelMark] at h
    | [_, _, _, _, _], _, _, h => simp [labelMark] at h
    | _ :: _ :: _ :: _ :: _ :: _ :: _, _, hlong, _ => simp [labelMark] at hlong

/-- Where the mark first stands tells what is before it. -/
theorem front_eq_of_mark {front front' back back' : List Char} (hfront : ¬ labelMark <:+: front)
    (hfront' : ¬ labelMark <:+: front')
    (h : front ++ (labelMark ++ back) = front' ++ (labelMark ++ back')) : front = front' := by
  rcases List.append_eq_append_iff.mp h with ⟨more, rfl, hrest⟩ | ⟨more, rfl, hrest⟩
  · by_cases hmore : more = []
    · rw [hmore, List.append_nil]
    · have hmark := mark_isInfix_of_append hmore hrest
      exact absurd (hmark.trans (List.suffix_append _ _).isInfix) hfront'
  · by_cases hmore : more = []
    · rw [hmore, List.append_nil]
    · have hmark := mark_isInfix_of_append hmore hrest
      exact absurd (hmark.trans (List.suffix_append _ _).isInfix) hfront

/-- A caption tells the name and the label. -/
theorem caption_inj {name name' : String} {label label' : Option String}
    (h : LegibleCaption name label) (h' : LegibleCaption name' label')
    (heq : caption name label = caption name' label') : name = name' ∧ label = label' := by
  have hchars := congrArg String.toList heq
  cases label with
  | none =>
    cases label' with
    | none => exact ⟨heq, rfl⟩
    | some l' =>
      rw [toList_caption_none, toList_caption_some] at hchars
      exact absurd ⟨_, _, by rw [hchars, List.append_assoc]⟩ h.name_mark
  | some l =>
    cases label' with
    | none =>
      rw [toList_caption_none, toList_caption_some] at hchars
      exact absurd ⟨_, _, by rw [← hchars, List.append_assoc]⟩ h'.name_mark
    | some l' =>
      rw [toList_caption_some, toList_caption_some] at hchars
      have hname := front_eq_of_mark h.name_mark h'.name_mark hchars
      rw [hname] at hchars
      have hlabel := List.append_cancel_left (List.append_cancel_left hchars)
      have hl : l = l' := String.toList_inj.mp (List.append_cancel_right hlabel)
      exact ⟨String.toList_inj.mp hname, congrArg some hl⟩

/-! ## Blocks of lines -/

/-- The line begins with a connector: it is the first one of a node. -/
def isBranch (line : String) : Bool :=
  line.toList.head? == some '└' || line.toList.head? == some '├'

variable {t s : TreeNode} {ts us : List TreeNode}

/-- The lines of a tree are its caption and those of its children. -/
theorem lines_eq (t : TreeNode) : t.lines = caption t.name t.label :: childLines t.children := by
  cases t <;> rfl

theorem toList_connector (isLast : Bool) (line : String) :
    ((if isLast then "└── " else "├── ") ++ line).toList =
      (if isLast then '└' else '├') :: '─' :: '─' :: ' ' :: line.toList := by
  rw [String.toList_append]
  cases isLast <;> rfl

theorem toList_indent (isLast : Bool) (line : String) :
    ((if isLast then "    " else "│   ") ++ line).toList =
      (if isLast then ' ' else '│') :: ' ' :: ' ' :: ' ' :: line.toList := by
  rw [String.toList_append]
  cases isLast <;> rfl

theorem isBranch_connector (isLast : Bool) (line : String) :
    isBranch ((if isLast then "└── " else "├── ") ++ line) = true := by
  rw [isBranch, toList_connector]
  cases isLast <;> rfl

theorem not_isBranch_indent (isLast : Bool) (line : String) :
    isBranch ((if isLast then "    " else "│   ") ++ line) = false := by
  rw [isBranch, toList_indent]
  cases isLast <;> rfl

/-- A connector tells which it is, and the line behind it. -/
theorem connector_append_inj {isLast isLast' : Bool} {line line' : String}
    (h : (if isLast then "└── " else "├── ") ++ line =
      (if isLast' then "└── " else "├── ") ++ line') : isLast = isLast' ∧ line = line' := by
  have hchars := congrArg String.toList h
  rw [toList_connector, toList_connector] at hchars
  obtain ⟨hfirst, hrest⟩ := List.cons.inj hchars
  have hline : line = line' := String.toList_inj.mp (by simpa using hrest)
  refine ⟨?_, hline⟩
  cases isLast <;> cases isLast'
  · rfl
  · exact absurd hfirst (by decide)
  · exact absurd hfirst (by decide)
  · rfl

/-- The lines of some nodes are none, or begin with a connector. -/
theorem isBranch_of_mem_head? {line : String} (h : line ∈ (childLines ts).head?) :
    isBranch line = true := by
  cases ts with
  | nil => cases h
  | cons t rest =>
    rw [childLines, lines_eq, drawnBelow, List.cons_append, List.head?_cons] at h
    cases h
    exact isBranch_connector _ _

/-- Up to the next connector. -/
theorem takeWhile_block {block rest : List String} (hblock : ∀ line ∈ block, isBranch line = false)
    (hrest : ∀ line ∈ rest.head?, isBranch line = true) :
    (block ++ rest).takeWhile (fun line => !isBranch line) = block := by
  have hnone : rest.takeWhile (fun line => !isBranch line) = [] := by
    cases rest with
    | nil => rfl
    | cons line rest => exact List.takeWhile_cons_of_neg (by simp [hrest line rfl])
  rw [List.takeWhile_append_of_pos (by simpa using hblock), hnone, List.append_nil]

/-- The first block of some lines tells what is drawn in it. -/
theorem drawnBelow_append_inj {isLast isLast' : Bool} {first first' : String}
    {below below' rest rest' : List String} (hrest : ∀ line ∈ rest.head?, isBranch line = true)
    (hrest' : ∀ line ∈ rest'.head?, isBranch line = true)
    (h : drawnBelow isLast (first :: below) ++ rest =
      drawnBelow isLast' (first' :: below') ++ rest') :
    first = first' ∧ below = below' ∧ rest = rest' := by
  rw [drawnBelow, drawnBelow, List.cons_append, List.cons_append] at h
  obtain ⟨hhead, htail⟩ := List.cons.inj h
  obtain ⟨rfl, hfirst⟩ := connector_append_inj hhead
  have hindented : ∀ lines : List String,
      ∀ line ∈ lines.map ((if isLast then "    " else "│   ") ++ ·), isBranch line = false := by
    intro lines line hline
    obtain ⟨inner, -, rfl⟩ := List.mem_map.mp hline
    exact not_isBranch_indent isLast inner
  have hblock := congrArg (List.takeWhile fun line => !isBranch line) htail
  rw [takeWhile_block (hindented below) hrest, takeWhile_block (hindented below') hrest'] at hblock
  have hbelow : below = below' := by
    refine List.map_injective_iff.mpr ?_ hblock
    intro line line' hline
    exact String.append_right_inj _ |>.mp hline
  subst hbelow
  exact ⟨hfirst, rfl, List.append_cancel_left htail⟩

/-! ## What a text tells -/

mutual

/-- Every name and label of a tree can be read back from its caption. -/
def Legible : TreeNode → Prop
  | .file name label => LegibleCaption name label
  | .directory name label children => LegibleCaption name label ∧ AllLegible children

/-- Every name and label at or below some nodes can be read back from its caption. -/
def AllLegible : List TreeNode → Prop
  | [] => True
  | t :: ts => t.Legible ∧ AllLegible ts

end

mutual

def decidableLegible : (t : TreeNode) → Decidable t.Legible
  | .file name label => inferInstanceAs (Decidable (LegibleCaption name label))
  | .directory name label children =>
    have := decidableAllLegible children
    inferInstanceAs (Decidable (LegibleCaption name label ∧ AllLegible children))

def decidableAllLegible : (ts : List TreeNode) → Decidable (AllLegible ts)
  | [] => inferInstanceAs (Decidable True)
  | t :: ts =>
    have := decidableLegible t
    have := decidableAllLegible ts
    inferInstanceAs (Decidable (t.Legible ∧ AllLegible ts))

end

instance (t : TreeNode) : Decidable t.Legible := decidableLegible t

mutual

/-- A tree in which files count as directories without children. -/
def withoutKinds : TreeNode → TreeNode
  | .file name label => .directory name label []
  | .directory name label children => .directory name label (withoutKindsAll children)

/-- Some nodes that all count as directories. -/
def withoutKindsAll : List TreeNode → List TreeNode
  | [] => []
  | t :: ts => t.withoutKinds :: withoutKindsAll ts

end

theorem withoutKinds_eq (t : TreeNode) :
    t.withoutKinds = .directory t.name t.label (withoutKindsAll t.children) := by
  cases t <;> rfl

theorem legible_iff (t : TreeNode) :
    t.Legible ↔ LegibleCaption t.name t.label ∧ AllLegible t.children := by
  cases t with
  | file name label => exact ⟨fun h => ⟨h, trivial⟩, And.left⟩
  | directory name label children => exact Iff.rfl

/-- Induction over nodes with the nodes below them, whatever their kind. -/
@[elab_as_elim]
theorem nodes_induction {motive : List TreeNode → Prop} (nil : motive [])
    (cons : ∀ t ts, motive t.children → motive ts → motive (t :: ts)) (ts : List TreeNode) :
    motive ts := by
  induction ts using forest_induction with
  | nil => exact nil
  | file name label ts ih => exact cons (.file name label) ts nil ih
  | directory name label children ts ihChildren ih =>
    exact cons (.directory name label children) ts ihChildren ih

/-- The lines of some nodes hold no line ends. -/
theorem AllLegible.newline_not_mem (h : AllLegible ts) :
    ∀ line ∈ childLines ts, '\n' ∉ line.toList := by
  induction ts using nodes_induction with
  | nil => intro line hline; cases hline
  | cons t ts ihChildren ih =>
    obtain ⟨hcaption, hchildren⟩ := (legible_iff t).mp h.1
    intro line hline
    rw [childLines, lines_eq, drawnBelow] at hline
    rcases List.mem_append.mp hline with hline | hline
    · rcases List.mem_cons.mp hline with rfl | hline
      · have hfirst := hcaption.caption_line
        rw [toList_connector]
        cases ts.isEmpty <;> simpa using hfirst
      · obtain ⟨inner, hinner, rfl⟩ := List.mem_map.mp hline
        have hbelow := ihChildren hchildren inner hinner
        rw [toList_indent]
        cases ts.isEmpty <;> simpa using hbelow
    · exact ih h.2 line hline

theorem Legible.newline_not_mem (h : t.Legible) : ∀ line ∈ t.lines, '\n' ∉ line.toList := by
  obtain ⟨hcaption, hchildren⟩ := (legible_iff t).mp h
  rw [lines_eq]
  exact List.forall_mem_cons.mpr ⟨hcaption.caption_line, hchildren.newline_not_mem⟩

/-- The lines of a tree come back from its text. -/
theorem Legible.splitOnChar_render (h : t.Legible) :
    Text.splitOnChar '\n' t.render = t.lines :=
  Text.splitOnChar_intercalate rfl (by rw [lines_eq]; exact List.cons_ne_nil _ _) h.newline_not_mem

/-- The lines of some nodes tell the nodes up to their kinds. -/
theorem withoutKindsAll_eq_of_childLines (h : AllLegible ts) (h' : AllLegible us)
    (heq : childLines ts = childLines us) : withoutKindsAll ts = withoutKindsAll us := by
  induction ts using nodes_induction generalizing us with
  | nil =>
    cases us with
    | nil => rfl
    | cons u us => rw [childLines, childLines, lines_eq] at heq; cases heq
  | cons t ts ihChildren ih =>
    cases us with
    | nil => rw [childLines, childLines, lines_eq] at heq; cases heq
    | cons u us =>
      obtain ⟨hcaption, hchildren⟩ := (legible_iff t).mp h.1
      obtain ⟨hcaption', hchildren'⟩ := (legible_iff u).mp h'.1
      rw [childLines, childLines, lines_eq, lines_eq] at heq
      obtain ⟨hfirst, hbelow, hrest⟩ := drawnBelow_append_inj
        (fun _ => isBranch_of_mem_head?) (fun _ => isBranch_of_mem_head?) heq
      obtain ⟨hname, hlabel⟩ := caption_inj hcaption hcaption' hfirst
      rw [withoutKindsAll, withoutKindsAll, withoutKinds_eq, withoutKinds_eq, hname, hlabel,
        ihChildren hchildren hchildren' hbelow, ih h.2 h'.2 hrest]

/-- The kinds of nodes are not drawn. -/
theorem childLines_withoutKindsAll (ts : List TreeNode) :
    childLines (withoutKindsAll ts) = childLines ts := by
  induction ts using nodes_induction with
  | nil => rfl
  | cons t ts ihChildren ih =>
    have hempty : (withoutKindsAll ts).isEmpty = ts.isEmpty := by cases ts <;> rfl
    rw [withoutKindsAll, childLines, childLines, hempty, ih, withoutKinds_eq, lines_eq t]
    simp only [lines, ihChildren]

theorem render_withoutKinds (t : TreeNode) : t.withoutKinds.render = t.render := by
  rw [render, render, withoutKinds_eq, lines_eq t]
  simp only [lines, childLines_withoutKindsAll]

/-- Two trees have the same text exactly if they have the same names, labels and children at every
level, where only nodes without children may differ in their kind. -/
theorem render_eq_iff (h : t.Legible) (h' : s.Legible) :
    t.render = s.render ↔ t.withoutKinds = s.withoutKinds := by
  constructor
  · intro heq
    have hlines : t.lines = s.lines := by
      rw [← h.splitOnChar_render, ← h'.splitOnChar_render, heq]
    rw [lines_eq, lines_eq] at hlines
    obtain ⟨hfirst, hbelow⟩ := List.cons.inj hlines
    obtain ⟨hcaption, hchildren⟩ := (legible_iff t).mp h
    obtain ⟨hcaption', hchildren'⟩ := (legible_iff s).mp h'
    obtain ⟨hname, hlabel⟩ := caption_inj hcaption hcaption' hfirst
    rw [withoutKinds_eq, withoutKinds_eq, hname, hlabel,
      withoutKindsAll_eq_of_childLines hchildren hchildren' hbelow]
  · intro heq
    rw [← render_withoutKinds t, heq, render_withoutKinds]

/-- Without the condition on names a name can be read as another name with a label. -/
example : (file "a <-- (b)" none).render = (file "a" (some "b")).render := rfl

/-- A tree whose names begin as drawn lines do. -/
def connectorTree : TreeNode :=
  .directory "└── a" none
    [.directory "├── b" (some "B") [.file "    └── c <--" (some "1) <-- (2")],
      .file "│   └── d" none, .file "" none]

/-- The same tree with directories for the files at its end. -/
def connectorDirectories : TreeNode :=
  .directory "└── a" none
    [.directory "├── b" (some "B") [.file "    └── c <--" (some "1) <-- (2")],
      .directory "│   └── d" none [], .directory "" none []]

theorem render_eq_iff_connectors :
    connectorTree.Legible ∧ connectorDirectories.Legible ∧
      (connectorTree.render = connectorDirectories.render ↔
        connectorTree.withoutKinds = connectorDirectories.withoutKinds) := by
  have h : connectorTree.Legible := by decide
  have h' : connectorDirectories.Legible := by decide
  exact ⟨h, h', render_eq_iff h h'⟩

end TreeNode

end ImportContext
