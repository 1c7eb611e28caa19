import ImportContext.Proofs.Import.Written
import ImportContext.Proofs.Module.Relative

/-!
# Well-formed declarations

The readers and the checks look at words one by one. What comes out of them is one text per path,
and all that is done with a declaration afterwards works on this text: the first part is the root
module, and the parts are the segments of the identity that is looked up. Here it is shown that the
parts of the text are the words, so nothing that was refused word by word comes back.

Main definitions: `IsDottedName`, `IsSingleName`, `ImportDeclaration.WellFormed`.

Results:
* `splitOnChar_dotted`: the parts of a dotted path are its words.
* `ImportDeclaration.Written.wellFormed`, `PackageLayout.segments_ne_nil_of_resolve`: what names
  make is well formed, and leads to a module that has a name.
* `extractImports_wellFormed`: so is every declaration of a text.
-/

namespace ImportContext

open Source

/-! ## Names -/

/-- Parts with dots between them, each with something in it and none a keyword. -/
def IsDottedName (path : String) : Prop :=
  ∀ part ∈ Text.splitOnChar '.' path, part ≠ "" ∧ part ∉ keywords

/-- A name without dots that is no keyword. -/
structure IsSingleName (w : String) : Prop where
  ne_empty : w ≠ ""
  dot_free : '.' ∉ w.toList
  no_keyword : w ∉ keywords

theorem isWordPart_dot : isWordPart '.' = false := by
  decide

theorem Source.IsWord.ne_empty {w : String} (hw : IsWord w) : w ≠ "" := by
  rintro rfl
  exact hw.toList_ne_nil rfl

theorem IsImportName.isSingleName {w : String} (h : IsImportName w) : IsSingleName w :=
  ⟨h.1.ne_empty, h.1.not_mem isWordPart_dot, h.2⟩

/-- The parts of a dotted path are its words. -/
theorem splitOnChar_dotted {ws : List String} (hne : ws ≠ []) (hws : ∀ w ∈ ws, IsWord w) :
    Text.splitOnChar '.' (dotted ws) = ws :=
  Text.splitOnChar_intercalate rfl hne fun w hw => (hws w hw).not_mem isWordPart_dot

theorem isDottedName_dotted {ws : List String} (hne : ws ≠ []) (hws : ∀ w ∈ ws, IsImportName w) :
    IsDottedName (dotted ws) := by
  intro part hpart
  rw [splitOnChar_dotted hne fun w hw => (hws w hw).1] at hpart
  exact ⟨(hws part hpart).1.ne_empty, (hws part hpart).2⟩

theorem IsDottedName.ne_empty {path : String} (h : IsDottedName path) : path ≠ "" := by
  rintro rfl
  exact (h "" (by simp [Text.splitOnChar])).1 rfl

/-! ## Declarations -/

structure PlainImport.WellFormed (d : PlainImport) : Prop where
  path : IsDottedName d.modulePath
  asName : ∀ a ∈ d.asName, IsSingleName a

structure FromImport.WellFormed (d : FromImport) : Prop where
  /-- The path may be missing behind dots. -/
  path : IsDottedName d.modulePath ∨ d.modulePath = "" ∧ 1 ≤ d.depth
  relative : d.isRelative = true ↔ 1 ≤ d.depth
  symbol : d.symbol = "*" ∨ IsSingleName d.symbol
  asName : ∀ a ∈ d.asName, IsSingleName a
  wildcard : d.isWildcard = true → d.asName = none

namespace ImportDeclaration

def WellFormed : ImportDeclaration → Prop
  | plain d => d.WellFormed
  | member d => d.WellFormed

variable {d : ImportDeclaration}

/-- The path of a `from` statement. -/
theorem path_of_isOrigin {depth : Nat} {path : List String} (h : IsOrigin depth path)
    (hpath : ∀ w ∈ path, w ∉ keywords) :
    IsDottedName (dotted path) ∨ dotted path = "" ∧ 1 ≤ depth := by
  cases path with
  | nil => exact .inr ⟨rfl, h.some.resolve_right fun hne => hne rfl⟩
  | cons w ws =>
    exact .inl (isDottedName_dotted (List.cons_ne_nil w ws) fun w hw => ⟨h.words w hw, hpath w hw⟩)

/-- An import is relative exactly when there are dots. -/
theorem isRelative_iff {d : FromImport}
    (h : IsDottedName d.modulePath ∨ d.modulePath = "" ∧ 1 ≤ d.depth) :
    d.isRelative = true ↔ 1 ≤ d.depth := by
  rw [FromImport.isRelative, Bool.or_eq_true, decide_eq_true_iff, beq_iff_eq]
  refine or_iff_left_of_imp fun hempty => ?_
  rcases h with h | h
  · exact absurd hempty h.ne_empty
  · exact h.2

/-- What names make is well formed. -/
theorem Written.wellFormed (h : d.Written) : d.WellFormed := by
  cases h with
  | plain hne hparts hasName =>
    exact ⟨isDottedName_dotted hne hparts, fun a ha => (hasName a ha).isSingleName⟩
  | member horigin hpath hsymbol hasName =>
    have hpath := path_of_isOrigin horigin hpath
    refine ⟨hpath, isRelative_iff hpath, .inr hsymbol.isSingleName,
      fun a ha => (hasName a ha).isSingleName, fun hwildcard => ?_⟩
    -- a star is no word
    obtain rfl := eq_of_beq hwildcard
    exact absurd (hsymbol.1.isWordPart (List.mem_singleton_self '*')) (by decide)
  | wildcard horigin hpath _ =>
    have hpath := path_of_isOrigin horigin hpath
    exact ⟨hpath, isRelative_iff hpath, .inl rfl, by simp, fun _ => rfl⟩

end ImportDeclaration

/-! ## Resolution -/

/-- A dotted name has all its parts as segments. -/
theorem IsDottedName.parts_eq {path : String} (h : IsDottedName path) :
    ModuleIdentity.parts path = Text.splitOnChar '.' path := by
  rw [ModuleIdentity.parts, List.filter_eq_self]
  exact fun part hpart => bne_iff_ne.mpr (h part hpart).1

theorem IsDottedName.parts_ne_nil {path : String} (h : IsDottedName path) :
    ModuleIdentity.parts path ≠ [] := by
  rw [h.parts_eq, Text.splitOnChar, Ne, List.map_eq_nil_iff]
  exact List.splitOn_ne_nil _ _

namespace PackageLayout

variable {current : ModuleLocation} {d : ImportDeclaration} {r : ResolvedImport}

/-- Behind dots there is at least one package left. -/
theorem segments_ne_nil_of_resolveRelative {depth : Nat} {path : String} {m : ModuleIdentity}
    (hdepth : 1 ≤ depth) (h : resolveRelative current depth path = .ok m) : m.segments ≠ [] := by
  obtain ⟨hlength, rfl⟩ := resolveRelative_eq_ok hdepth h
  refine List.append_ne_nil_of_left_ne_nil (List.ne_nil_of_length_pos ?_) _
  rw [List.length_take]
  omega

/-- A well-formed declaration leads to a module that has a name. -/
theorem segments_ne_nil_of_resolve (hd : d.WellFormed) (h : resolve current d = .ok r) :
    r.module.segments ≠ [] := by
  cases d with
  | plain d =>
    cases h
    exact hd.path.parts_ne_nil
  | member d =>
    rw [resolve] at h
    split at h
    · next hrelative =>
      obtain ⟨m, hm, h⟩ := bind_eq_ok_iff.mp h
      cases h
      exact segments_ne_nil_of_resolveRelative (hd.relative.mp hrelative) hm
    · next habsolute =>
      cases h
      rcases hd.path with hpath | ⟨-, hdepth⟩
      · exact hpath.parts_ne_nil
      · exact absurd (hd.relative.mpr hdepth) habsolute

end PackageLayout

/-- Every declaration of a text is well formed and leads to a module that has a name, from wherever
it leads to a module at all. -/
theorem extractImports_wellFormed {source : String} {ds : List ImportDeclaration}
    (h : extractImports source = .ok ds) :
    ∀ d ∈ ds, d.WellFormed ∧
      ∀ current r, PackageLayout.resolve current d = .ok r → r.module.segments ≠ [] := by
  intro d hd
  have hwell : d.WellFormed := (extractImports_written h hd).wellFormed
  exact ⟨hwell, fun _ _ hr => PackageLayout.segments_ne_nil_of_resolve hwell hr⟩

/-- A package without a path behind its dots, imported from a module of that package. -/
theorem extractImports_wellFormed_dots :
    let source := "from . import a as b\nfrom ..c.d import *\n"
    let first : ImportDeclaration := .member ⟨"", "a", some "b", 1, ⟨1, 0⟩⟩
    let second : ImportDeclaration := .member ⟨"c.d", "*", none, 2, ⟨2, 0⟩⟩
    let current : ModuleLocation := ⟨⟨"/p/q/m.py"⟩, ⟨"/"⟩, ⟨["p", "q", "m"]⟩, false⟩
    extractImports source = .ok [first, second] ∧ first.WellFormed ∧ second.WellFormed ∧
      PackageLayout.resolve current first = .ok ⟨⟨["p", "q"]⟩, some "a"⟩ ∧
      PackageLayout.resolve current second = .ok ⟨⟨["p", "c", "d"]⟩, some "*"⟩ := by
  intro source first second current
  have h : extractImports source = .ok [first, second] := eq_ok_of_toOption (by decide +kernel)
  have hall := extractImports_wellFormed h
  exact ⟨h, (hall first (by simp)).1, (hall second (by simp)).1, rfl, rfl⟩

end ImportContext
