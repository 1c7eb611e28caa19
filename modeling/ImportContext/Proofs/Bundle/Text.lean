import ImportContext.Proofs.Bundle.Sections
import ImportContext.Proofs.Bundle.Templates
import ImportContext.Proofs.Template.Rendering
import ImportContext.Proofs.Text.Trimming

/-!
# The text of a bundle

The built-in templates put a bundle together from a head, an introduction to the imports if there
are any, and one block for every section. Values are put in as they are, whatever they are made of,
and a block depends on its own section and the level of headings only.

Results:
* `shows_when`, `shows_finding`: parts that are shown for some values only.
* `shows_head`, `shows_block`, `shows_template`: what each template shows.
* `bundle_text_by_parts`: the text of a bundle.
-/

namespace ImportContext

open BundleTemplate (item shown)

/-! ## Values that count as missing -/

/-- A text that is there and not empty. -/
def present? (t : Option String) : Option String :=
  t.filter (· != "")

theorem present?_eq_some_iff {t : Option String} {s : String} :
    present? t = some s ↔ t = some s ∧ s ≠ "" := by
  simp [present?, Option.filter_eq_some_iff]

theorem truth_text? (t : Option String) :
    (TemplateValue.text? t).truth = (present? t).isSome := by
  cases t with
  | none => rfl
  | some s => by_cases hs : s = "" <;> simp [TemplateValue.text?, TemplateValue.truth, present?, hs]

theorem display_text? (t : Option String) : (TemplateValue.text? t).display = t.getD "none" := by
  cases t with
  | none => rfl
  | some s => rfl

variable {scope : TemplateScope} {name : String} {nodes : List TemplateNode} {v : TemplateValue}

theorem eval?_name (h : scope.lookup name = some v) :
    (TemplateExpr.name name).eval? scope = some v := by
  rw [TemplateExpr.eval?, h]
  rfl

theorem shows_shown {t : String} (h : scope.lookup name = some (.string t)) :
    Shows scope [shown name] t :=
  shows_output_string (eval?_name h)

section Test

variable {test : TemplateExpr} {t : Option String} {cases : List (TemplateExpr × List TemplateNode)}
  {otherwise : List TemplateNode} {text : String → String} {rest : String}

/-- A case that tests a text is shown if the text is there. -/
theorem shows_case (htest : test.eval? scope = some (.text? t))
    (h : ∀ s, test.eval? scope = some (.string s) → Shows scope nodes (text s))
    (hrest : Shows scope [.branch cases otherwise] rest) :
    Shows scope [.branch ((test, nodes) :: cases) otherwise] ((present? t).elim rest text) := by
  have htruth := truth_text? t
  cases ht : present? t with
  | none =>
    rw [ht] at htruth
    exact shows_case_false htest htruth hrest
  | some s =>
    rw [ht] at htruth
    have hs : TemplateValue.text? t = .string s := by
      rw [(present?_eq_some_iff.mp ht).1]
      rfl
    exact shows_case_true htest htruth (h s (hs ▸ htest))

/-- Nodes that depend on a text show nothing if the text is missing. -/
theorem shows_when (htest : test.eval? scope = some (.text? t))
    (h : ∀ s, test.eval? scope = some (.string s) → Shows scope nodes (text s)) :
    Shows scope [.branch [(test, nodes)] []] ((present? t).elim "" text) :=
  shows_case htest h (shows_otherwise shows_nil)

end Test

/-! ## Sections -/

/-- What a block shows of a section behind the statement and the file. -/
inductive Finding where
  | failure (message : String)
  | source (text : String)
  | representation (text : String)
  | nothing
deriving DecidableEq, Repr

namespace ImportSection

variable (s : ImportSection)

/-- The name of what was imported: that of its definition if it is known, else that it was imported
by. -/
def fullPath? : Option String :=
  s.location.qualifiedName <|> s.target.map ModuleIdentity.text

/-- The text of the definition without the blanks at its end. -/
def shownSource? : Option String :=
  s.location.sourceText.map Text.trimEnd

/-- What a block shows of the section: why the import failed, else its source, else its
representation, else that there is nothing. Empty texts count as missing. -/
def finding : Finding :=
  match present? s.diagnostic, present? s.shownSource?, present? s.location.representation with
  | some message, _, _ => .failure message
  | none, some text, _ => .source text
  | none, none, some text => .representation text
  | none, none, none => .nothing

variable {s}

theorem finding_of_diagnostic {m : String} (h : present? s.diagnostic = some m) :
    s.finding = .failure m := by
  rw [finding, h]

end ImportSection

section Item

variable {s : ImportSection} {key : String}

/-- The fields of the section that a block is about. -/
theorem eval?_item (hitem : scope.lookup "item" = some s.templateValue)
    (hkey : s.templateValue.field? key = some v) : (item key).eval? scope = some v := by
  rw [item, TemplateExpr.eval?, eval?_name hitem]
  exact hkey

variable {failed sourced represented otherwise : List TemplateNode} (text : Finding → String)

/-- The branch that ends a block shows what was found. -/
theorem shows_finding (hitem : scope.lookup "item" = some s.templateValue)
    (hfailed : ∀ m, (item "diagnostic").eval? scope = some (.string m) →
      Shows scope failed (text (.failure m)))
    (hsourced : ∀ m, (item "source").eval? scope = some (.string m) →
      Shows scope sourced (text (.source m)))
    (hrepresented : ∀ m, (item "representation").eval? scope = some (.string m) →
      Shows scope represented (text (.representation m)))
    (hnothing : Shows scope otherwise (text .nothing)) :
    Shows scope
      [.branch [(item "diagnostic", failed), (item "source", sourced),
        (item "representation", represented)] otherwise] (text s.finding) := by
  have hfinding : text s.finding = (present? s.diagnostic).elim
      ((present? s.shownSource?).elim
        ((present? s.location.representation).elim (text .nothing) (text ∘ .representation))
        (text ∘ .source)) (text ∘ .failure) := by
    unfold ImportSection.finding
    cases present? s.diagnostic with
    | some m => rfl
    | none =>
      cases present? s.shownSource? with
      | some m => rfl
      | none => cases present? s.location.representation <;> rfl
  rw [hfinding]
  refine shows_case (eval?_item hitem rfl) hfailed ?_
  refine shows_case (eval?_item hitem rfl) hsourced ?_
  exact shows_case (eval?_item hitem rfl) hrepresented (shows_otherwise hnothing)

end Item

/-! ## The parts of a text -/

/-- The level of the main heading. -/
def BundleOptions.level (o : BundleOptions) : Nat :=
  max 1 (min o.headingLevel 4)

namespace BundleFormat

section Head

variable (options : BundleOptions) (unit : SourceUnit) (location : ModuleLocation)
  (tree : Option String)

/-- What stands in front of the source text. -/
def beforeSource : BundleFormat → List String
  | markdown =>
    [headingMark options.level, " ", titleize (bundleTitle options.codeName), "\n\n",
      (present? options.description).elim "" fun s => String.join [s, "\n\n"],
      "**Source File Location:** `", location.sourceFile.text,
      "`\n\n**Package Namespace:** `", location.identity.text,
      "`\n\n**Relative Source File Location:** `", location.relativeFile.text, "`\n\n",
      (present? tree).elim "" fun s => String.join ["Module directory tree:\n\n```\n", s, "\n```\n\n"],
      "**Complete Source Code:**\n\n```python\n"]
  | plain =>
    [Text.upper (titleize (bundleTitle options.codeName)), "\n",
      (present? options.description).elim "" fun s => String.join [s, "\n"],
      "\nSource file: ", location.sourceFile.text, "\nPackage: ", location.identity.text,
      "\nRelative source file: ", location.relativeFile.text, "\n",
      (present? tree).elim "" fun s => String.join ["\nModule directory tree:\n", s, "\n"],
      "\n-- source --\n"]

/-- What stands behind the source text. -/
def afterSource : BundleFormat → List String
  | markdown => ["\n```\n"]
  | plain => ["\n"]

/-- Everything before the imports. -/
def headText (format : BundleFormat) : String :=
  String.join (format.beforeSource options location tree ++
    Text.trimEnd unit.source :: format.afterSource)

/-- What introduces the imports. -/
def introText : BundleFormat → String
  | markdown =>
    String.join ["\n", headingMark (options.level + 1),
      " Dependency Analysis - Import Statements and Their Implementations\n\n" ++
        "The following section contains all imported dependencies for package `",
      location.identity.text,
      "` along with their source code implementations. This information can be used as " ++
        "reference context for understanding the main code's functionality and dependencies.\n"]
  | plain => ""

end Head

/-- The line with the statement of an import. -/
def statementLine (level : Nat) (s : ImportSection) : BundleFormat → List String
  | markdown => ["\n", headingMark (level + 2), " Import: `", s.declaration.text, "`\n"]
  | plain =>
    ["\n-- import (line ", toString s.declaration.pos.line, "): ", s.declaration.text, "\n"]

/-- The lines about the file of an import. -/
def fileText (file fullPath : String) : BundleFormat → String
  | markdown =>
    String.join ["\n**Source File:** `", file, "`\n\n**Full Package Path:** `", fullPath, "`\n"]
  | plain => String.join ["File: ", file, "\nFull path: ", fullPath, "\n"]

/-- The lines about what was found. -/
def findingText : BundleFormat → Finding → String
  | markdown, .failure m => String.join ["\n**Error:** ", m, "\n"]
  | markdown, .source t =>
    String.join ["\n**Implementation Source Code:**\n\n```python\n", t, "\n```\n"]
  | markdown, .representation t =>
    String.join
      ["\n**Note:** Source code is not available through static or runtime " ++
        "inspection. Below is the object representation:\n\n```\n", t, "\n```\n"]
  | markdown, .nothing => "\n**Note:** No definition could be located for this import.\n"
  | plain, .failure m => String.join ["Error: ", m, "\n"]
  | plain, .source t => String.join [t, "\n"]
  | plain, .representation t => String.join ["Representation: ", t, "\n"]
  | plain, .nothing => "No definition located.\n"

/-- The block of a section: the statement, the file and the full path if the file is known, and
what was found. -/
def blockText (format : BundleFormat) (level : Nat) (s : ImportSection) : String :=
  String.join (format.statementLine level s ++
    [(present? (s.location.file.map Path.text)).elim "" fun file =>
        format.fileText file (s.fullPath?.getD "none"),
      format.findingText s.finding])

/-- The text of a bundle. -/
def bundleText (format : BundleFormat) (options : BundleOptions) (unit : SourceUnit)
    (location : ModuleLocation) (tree : Option String) (sections : List ImportSection) : String :=
  format.headText options unit location tree ++
    (if sections = [] then "" else format.introText options location) ++
    String.join (sections.map (format.blockText options.level))

/-- The head of the template of a format. -/
def headNodes : BundleFormat → List TemplateNode
  | markdown => BundleTemplate.markdownHead
  | plain => BundleTemplate.plainHead

/-- The block of the template of a format. -/
def blockNodes : BundleFormat → List TemplateNode
  | markdown => BundleTemplate.markdownBlock
  | plain => BundleTemplate.plainBlock

end BundleFormat

/-! ## What the templates show -/

/-- The scope tells of a bundle. -/
structure TellsOf (options : BundleOptions) (unit : SourceUnit) (location : ModuleLocation)
    (tree : Option String) (sections : List ImportSection) (scope : TemplateScope) : Prop where
  heading : scope.lookup "heading" = some (.string (headingMark options.level))
  subheading : scope.lookup "subheading" = some (.string (headingMark (options.level + 1)))
  itemHeading : scope.lookup "item_heading" = some (.string (headingMark (options.level + 2)))
  title : scope.lookup "title" = some (.string (bundleTitle options.codeName))
  description : scope.lookup "description" = some (.text? options.description)
  sourceFile : scope.lookup "source_file" = some (.string location.sourceFile.text)
  package : scope.lookup "package" = some (.string location.identity.text)
  relativeFile : scope.lookup "relative_file" = some (.string location.relativeFile.text)
  tree : scope.lookup "tree" = some (.text? tree)
  source : scope.lookup "source" = some (.string (Text.trimEnd unit.source))
  imports : scope.lookup "imports" = some (.list (sections.map ImportSection.templateValue))

section Shown

variable {options : BundleOptions} {unit : SourceUnit} {location : ModuleLocation}
  {tree : Option String} {sections : List ImportSection} {format : BundleFormat}
  {s : ImportSection} {t : String}

theorem tellsOf_bundleScope :
    TellsOf options unit location tree sections
      (bundleScope options unit location tree sections) := by
  constructor <;> rfl

/-- The head, node by node. -/
theorem shows_head (h : TellsOf options unit location tree sections scope) :
    Shows scope format.headNodes (format.headText options unit location tree) := by
  apply shows_of_pieces
  have htitle : (TemplateExpr.filter "titleize" (.name "title") [] []).eval? scope =
      some (.string (titleize (bundleTitle options.codeName))) := by
    rw [TemplateExpr.eval?, eval?_name h.title]
    rfl
  cases format with
  | markdown =>
    simp only [BundleFormat.headNodes, BundleFormat.beforeSource, BundleFormat.afterSource,
      BundleTemplate.markdownHead, List.cons_append, List.nil_append]
    refine .cons (shows_shown h.heading) <| .cons shows_text <|
      .cons (shows_output_string htitle) <| .cons shows_text <|
      .cons (shows_when (eval?_name h.description) fun s hs => ?description) <|
      .cons shows_text <| .cons (shows_shown h.sourceFile) <| .cons shows_text <|
      .cons (shows_shown h.package) <| .cons shows_text <| .cons (shows_shown h.relativeFile) <|
      .cons shows_text <| .cons (shows_when (eval?_name h.tree) fun s hs => ?tree) <|
      .cons shows_text <| .cons (shows_shown h.source) <| .cons shows_text .nil
    case description =>
      exact shows_of_pieces <| .cons (shows_output_string hs) <| .cons shows_text .nil
    case tree =>
      exact shows_framed hs
  | plain =>
    have hupper : (TemplateExpr.filter "upper" (.filter "titleize" (.name "title") [] []) []
        []).eval? scope = some (.string (Text.upper (titleize (bundleTitle options.codeName)))) := by
      rw [TemplateExpr.eval?, htitle]
      rfl
    simp only [BundleFormat.headNodes, BundleFormat.beforeSource, BundleFormat.afterSource,
      BundleTemplate.plainHead, List.cons_append, List.nil_append]
    refine .cons (shows_output_string hupper) <| .cons shows_text <|
      .cons (shows_when (eval?_name h.description) fun s hs => ?description) <|
      .cons shows_text <| .cons (shows_shown h.sourceFile) <| .cons shows_text <|
      .cons (shows_shown h.package) <| .cons shows_text <| .cons (shows_shown h.relativeFile) <|
      .cons shows_text <| .cons (shows_when (eval?_name h.tree) fun s hs => ?tree) <|
      .cons shows_text <| .cons (shows_shown h.source) <| .cons shows_text .nil
    case description =>
      exact shows_of_pieces <| .cons (shows_output_string hs) <| .cons shows_text .nil
    case tree =>
      exact shows_framed hs

/-- A block asks for the section and the level of its heading only. -/
theorem shows_block {level : Nat} (hitem : scope.lookup "item" = some s.templateValue)
    (hheading : scope.lookup "item_heading" = some (.string (headingMark (level + 2)))) :
    Shows scope format.blockNodes (format.blockText level s) := by
  apply shows_of_pieces
  have hstatement : Shows scope [.output (item "statement")] s.declaration.text :=
    shows_output_string (eval?_item hitem rfl)
  have hfile : (item "file").eval? scope = some (.text? (s.location.file.map Path.text)) :=
    eval?_item hitem rfl
  have hpath : Shows scope [.output (item "full_path")] (s.fullPath?.getD "none") := by
    rw [← display_text?]
    exact shows_output (eval?_item hitem rfl)
  cases format with
  | markdown =>
    have hfinding := shows_finding BundleFormat.markdown.findingText hitem
      (fun m hm => shows_framed hm) (fun m hm => shows_framed hm) (fun m hm => shows_framed hm)
      shows_text
    simp only [BundleFormat.blockNodes, BundleFormat.statementLine, BundleTemplate.markdownBlock,
      List.cons_append, List.nil_append]
    refine .cons shows_text <| .cons (shows_shown hheading) <| .cons shows_text <|
      .cons hstatement <| .cons shows_text <| .cons (shows_when hfile fun file hs => ?file) <|
      .cons hfinding .nil
    case file =>
      exact shows_of_pieces <| .cons shows_text <| .cons (shows_output_string hs) <|
        .cons shows_text <| .cons hpath <| .cons shows_text .nil
  | plain =>
    have hline : Shows scope [.output (item "line")] (toString s.declaration.pos.line) :=
      shows_output (eval?_item hitem rfl)
    have hfinding := shows_finding BundleFormat.plain.findingText hitem
      (fun m hm => shows_framed hm)
      (fun m hm => shows_of_pieces <| .cons (shows_output_string hm) <| .cons shows_text .nil)
      (fun m hm => shows_framed hm) shows_text
    simp only [BundleFormat.blockNodes, BundleFormat.statementLine, BundleTemplate.plainBlock,
      List.cons_append, List.nil_append]
    refine .cons shows_text <| .cons hline <| .cons shows_text <|
      .cons hstatement <| .cons shows_text <| .cons (shows_when hfile fun file hs => ?file) <|
      .cons hfinding .nil
    case file =>
      exact shows_of_pieces <| .cons shows_text <| .cons (shows_output_string hs) <|
        .cons shows_text <| .cons hpath <| .cons shows_text .nil

/-- A loop over the sections shows their blocks. -/
theorem shows_blocks (h : TellsOf options unit location tree sections scope) :
    Shows scope [.loop "item" (.name "imports") none format.blockNodes []]
      (String.join (sections.map (format.blockText options.level))) := by
  refine shows_loop (eval?_name h.imports) ?_
  intro scope' hsame state s _
  refine shows_block rfl ?_
  have hkept := (hsame.cons s.templateValue state) "item_heading" (by decide) (by decide)
  rw [hkept, h.itemHeading]

theorem shows_intro (h : TellsOf options unit location tree sections scope) :
    Shows scope BundleTemplate.markdownIntro (BundleFormat.markdown.introText options location) :=
  shows_of_pieces <| .cons shows_text <| .cons (shows_shown h.subheading) <| .cons shows_text <|
    .cons (shows_shown h.package) <| .cons shows_text .nil

theorem shows_template (h : TellsOf options unit location tree sections scope) :
    Shows scope format.template (format.bundleText options unit location tree sections) := by
  unfold BundleFormat.bundleText
  rw [String.append_assoc]
  cases format with
  | markdown =>
    refine shows_append (shows_head h : Shows scope BundleFormat.markdown.headNodes _) ?_
    have htest := eval?_name h.imports
    cases sections with
    | nil =>
      rw [if_pos rfl, List.map_nil, String.join_nil, String.empty_append]
      exact shows_case_false htest rfl (shows_otherwise shows_nil)
    | cons s rest =>
      rw [if_neg (List.cons_ne_nil s rest)]
      have hblocks : Shows scope [.loop "item" (.name "imports") none
          BundleFormat.markdown.blockNodes []] _ := shows_blocks h
      exact shows_case_true htest rfl (shows_append (shows_intro h) hblocks)
  | plain =>
    refine shows_append (shows_head h : Shows scope BundleFormat.plain.headNodes _) ?_
    rw [show BundleFormat.plain.introText options location = "" from rfl, ite_self,
      String.empty_append]
    have hblocks : Shows scope [.loop "item" (.name "imports") none
        BundleFormat.plain.blockNodes []] _ := shows_blocks h
    exact hblocks

/-! ## Whole bundles -/

variable {host : Host}

theorem findTemplate_name : findTemplate host format.name = .ok format.template := by
  cases format <;> rfl

/-- A built-in template has a text for all values. -/
theorem renderBundle_eq (hname : options.template.getD options.format.name = format.name) :
    renderBundle host options (bundleScope options unit location tree sections) =
      .ok (format.bundleText options unit location tree sections) := by
  have htext : renderTemplate? format.template (bundleScope options unit location tree sections) =
      some (format.bundleText options unit location tree sections) :=
    renderTemplate?_of_shows (shows_template tellsOf_bundleScope)
  rw [renderBundle, hname, findTemplate_name]
  dsimp only [bind, Except.bind]
  rw [htext]

theorem headText_eq : format.headText options unit location tree =
    String.join (format.beforeSource options location tree) ++ Text.trimEnd unit.source ++
      String.join format.afterSource := by
  rw [BundleFormat.headText, String.join_append, String.join_cons, String.append_assoc]

theorem blockText_eq (level : Nat) (s : ImportSection) : format.blockText level s =
    String.join (format.statementLine level s) ++
      ((present? (s.location.file.map Path.text)).elim "" fun file =>
        format.fileText file (s.fullPath?.getD "none")) ++ format.findingText s.finding := by
  rw [BundleFormat.blockText, String.join_append, String.join_cons, String.join_cons,
    String.join_nil, String.append_empty, String.append_assoc]

end Shown

namespace ImportInquiry

variable {q : ImportInquiry} {d : ImportDeclaration}

/-- An import that fails says why. -/
theorem message_ne_empty_of_sectionFor {e : BundleError} (h : q.sectionFor d = .error e) :
    e.message ≠ "" := by
  have hquoted : ∀ before after : String, before ++ d.text ++ "`: " ++ after ≠ "" := by
    intro before after hempty
    simp only [String.append_eq_empty_iff] at hempty
    exact absurd hempty.1.2 (by decide)
  rcases sectionFor_eq_error h with ⟨cause, he⟩ | ⟨cause, he⟩
  · rw [he]
    exact hquoted "failed to resolve `" cause.message
  · rw [he]
    exact hquoted "failed to locate `" cause.message

/-- A section has a diagnostic that is shown, or a target and none. -/
theorem sectionAlone_shown :
    (∃ m, (q.sectionAlone d).diagnostic = some m ∧ (q.sectionAlone d).finding = .failure m ∧
      (q.sectionAlone d).location.file = none) ∨
    (q.sectionAlone d).diagnostic = none ∧ (q.sectionAlone d).fullPath?.isSome := by
  unfold sectionAlone
  split
  · next s hsection =>
    obtain ⟨-, htarget, hdiagnostic⟩ := sectionFor_eq_ok hsection
    refine .inr ⟨hdiagnostic, ?_⟩
    obtain ⟨target, htarget⟩ := Option.isSome_iff_exists.mp htarget
    rw [ImportSection.fullPath?, htarget]
    cases s.location.qualifiedName <;> rfl
  · next e hsection =>
    have hmessage : present? (some e.message) = some e.message :=
      present?_eq_some_iff.mpr ⟨rfl, message_ne_empty_of_sectionFor hsection⟩
    refine .inl ⟨e.message, rfl, ?_, rfl⟩
    exact ImportSection.finding_of_diagnostic hmessage

end ImportInquiry

namespace Bundler

variable {b : Bundler} {host : Host} {location : ModuleLocation} {unit : SourceUnit} {g : Gathered}
  {out : Bundle} {format : BundleFormat}

/-- The text of a bundle that shows what was gathered. -/
theorem text_of_assemble (hname : b.options.template.getD b.options.format.name = format.name)
    (h : b.assemble host unit location g = .ok out) : ∃ tree,
      b.shownTree host location = .ok tree ∧
        out.text = format.bundleText b.options unit location tree out.sections := by
  obtain ⟨tree, htree, h⟩ := bind_eq_ok_iff.mp h
  obtain ⟨text, htext, h⟩ := bind_eq_ok_iff.mp h
  rw [renderBundle_eq hname] at htext
  cases htext
  cases h
  exact ⟨tree, htree, rfl⟩

end Bundler

open Bundler ImportInquiry in
/-- The source of a built-in template is read as its nodes, and for all values there are these are
shown as a head, an introduction if there are sections, and a block for each section. The head has
the source file in it, without the blanks at its end. A block has the statement, the file and the
full path if the file is known, and then what was found. So the text of every bundle is put
together, and in a bundle no diagnostic is empty, no file is known of an import that failed, and
every other import has a full path. -/
theorem bundle_text_by_parts (format : BundleFormat) :
    parseTemplate? format.source = some format.template ∧
    (∀ host options unit location tree sections,
      options.template.getD options.format.name = format.name →
      renderBundle host options (bundleScope options unit location tree sections) =
        .ok (format.headText options unit location tree ++
          (if sections = [] then "" else format.introText options location) ++
          String.join (sections.map (format.blockText options.level)))) ∧
    (∀ options unit location tree, ∃ blanks,
      format.headText options unit location tree =
        String.join (format.beforeSource options location tree) ++ Text.trimEnd unit.source ++
          String.join format.afterSource ∧
      unit.source = Text.trimEnd unit.source ++ String.ofList blanks ∧
      ∀ c ∈ blanks, Text.isBlank c = true) ∧
    (∀ level s, format.blockText level s = String.join (format.statementLine level s) ++
      ((present? (s.location.file.map Path.text)).elim "" fun file =>
        format.fileText file (s.fullPath?.getD "none")) ++ format.findingText s.finding) ∧
    ∀ (b : Bundler) host file out, b.options.template.getD b.options.format.name = format.name →
      b.bundle host file = .ok out →
      ∃ unit location tree, loadUnit host file = .ok unit ∧
        b.layout.locate host unit.path = .ok location ∧ b.shownTree host location = .ok tree ∧
        out.text = format.bundleText b.options unit location tree out.sections ∧
        ∀ s ∈ out.sections,
          (∃ m, s.diagnostic = some m ∧ s.finding = .failure m ∧ s.location.file = none) ∨
            s.diagnostic = none ∧ s.fullPath?.isSome := by
  refine ⟨BundleFormat.parseTemplate?_source, fun host options unit location tree sections hname =>
    renderBundle_eq hname, ?_, blockText_eq, ?_⟩
  · intro options unit location tree
    obtain ⟨blanks, hblanks, hall, -⟩ := Text.exists_trimEnd unit.source
    exact ⟨blanks, headText_eq, hblanks, hall⟩
  · intro b host file out hname h
    obtain ⟨unit, location, g, hunit, hlocation, hg, hassemble⟩ := bundle_eq_ok_iff.mp h
    obtain ⟨tree, htree, htext⟩ := text_of_assemble hname hassemble
    refine ⟨unit, location, tree, hunit, hlocation, htree, htext, ?_⟩
    intro s hs
    rw [(assemble_eq_ok hassemble).1, sections_eq_of_collect hg] at hs
    obtain ⟨d, -, rfl⟩ := List.mem_map.mp hs
    exact sectionAlone_shown

/-- A source file with a tag in a comment. -/
def taggedUnit : SourceUnit :=
  ⟨⟨"/main.py"⟩, ["import lib  # \x7b% raw %\x7d\n", "\n"], []⟩

/-- A section whose representation looks like an expression of a template. -/
def bracedSection : ImportSection where
  declaration := .plain ⟨"lib", none, ⟨1, 0⟩⟩
  target := some ⟨["lib"]⟩
  location := { file := some ⟨"/lib.py"⟩, representation := some "\x7b\x7b item \x7d\x7d" }

/-- Values are not read as parts of a template, and a bundle with a section that failed. -/
theorem bundle_text_by_parts_braces :
    renderBundle {} { format := .plain } (bundleScope { format := .plain } taggedUnit
        ⟨⟨"/main.py"⟩, ⟨"/"⟩, ⟨["main"]⟩, false⟩ none [bracedSection]) =
      .ok ("SOURCE CODE ANALYSIS\n\nSource file: /main.py\nPackage: main\n" ++
        "Relative source file: main.py\n\n-- source --\nimport lib  # \x7b% raw %\x7d\n" ++
        "\n-- import (line 1): import lib\nFile: /lib.py\nFull path: lib\n" ++
        "Representation: \x7b\x7b item \x7d\x7d\n") ∧
    ∃ out unit location, mixedBundler.bundle mixedHost ⟨"/main.py"⟩ = .ok out ∧
      (out.sections.length == 2 && out.diagnostics.length == 1) = true ∧
      out.text = BundleFormat.plain.bundleText mixedBundler.options unit location none
        out.sections := by
  have parts := bundle_text_by_parts .plain
  constructor
  · rw [parts.2.1 _ _ _ _ _ _ rfl]
    exact congrArg Except.ok (by decide +kernel)
  · obtain ⟨out, hout, hcount⟩ := mixedBundler_bundle
    obtain ⟨unit, location, tree, -, -, htree, htext, -⟩ :=
      parts.2.2.2.2 mixedBundler mixedHost ⟨"/main.py"⟩ out rfl hout
    cases htree
    exact ⟨out, unit, location, hout, hcount, htext⟩

end ImportContext
