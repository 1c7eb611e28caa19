import Mathlib.Data.List.Chain
import ImportContext.Proofs.Locate.Search

/-!
# Locations are right

A location with source that the search gives for a name of a module shows lines of a file. The
lines are those of the last definition of the name in the module at the end of a chain of
re-exports, or those of a whole module that the name stands for there.

Results:
* `Committed.chain`: the chain behind a search that commits itself, counted with the pairs that
  were entered before.
* `locateStatic_sound`: what a location with source says.
-/

namespace ImportContext

variable {layout : PackageLayout} {host : Host} {roots : SearchPath} {m : ModuleIdentity}
  {n : String}

/-- The location is that of the name's last definition in the module, or of a whole module: the
submodule of that name, or one that a plain import of the module binds to the name. -/
def Describes (layout : PackageLayout) (host : Host) (roots : SearchPath) (l : SymbolLocation)
    (m : ModuleIdentity) (n : String) : Prop :=
  (∃ r : ReadModule layout host roots m, r.DescribesDefinition n l) ∨
    ∃ i, (i = m.join n ∨ BindsModule layout host roots m n i) ∧
      ∃ r : ReadModule layout host roots i, r.DescribesModule l

/-- A module of which the whole text is shown was read. -/
theorem ShownWhole.describesModule {i : ModuleIdentity} {l : SymbolLocation}
    (h : ShownWhole layout host roots i l) :
    ∃ r : ReadModule layout host roots i, r.DescribesModule l := by
  obtain ⟨found, hfound, hl⟩ := h.moduleLocation_eq
  obtain ⟨r, -, -, hdescribes⟩ := moduleLocation_hasSource hfound hl h.2
  exact ⟨r, hdescribes⟩

/-- A described location shows lines of a file. -/
theorem Describes.shows {l : SymbolLocation} (h : Describes layout host roots l m n) :
    ∃ file first last, l.Shows host file first last := by
  rcases h with ⟨r, hdefinition⟩ | ⟨i, -, r, hmodule⟩
  · obtain ⟨s, kind, span, -, hshows⟩ := hdefinition.shows
    exact ⟨_, _, _, hshows⟩
  · exact ⟨_, _, _, hmodule.shows⟩

/-- Behind a search that commits itself is a chain of re-exports. The pairs of the chain were all
entered, after those that had been entered before. -/
theorem Committed.chain {v : Visited} {l : SymbolLocation}
    (h : Committed layout host roots v m n l) :
    ∃ rest last, v.length + ((m, n) :: rest).length ≤ maxEntries ∧
      ((m, n) :: rest).IsChain (Reexports layout host roots) ∧
      ((m, n) :: rest).getLast? = some last ∧
      Describes layout host roots l last.1 last.2 := by
  induction h with
  | @definition v m n l r hopen hdefinition =>
    have hroom := length_lt_of_isClosed hopen
    exact ⟨[], (m, n), hroom, .singleton _, rfl, .inl ⟨r, r.describesDefinition hdefinition⟩⟩
  | @submodule v m n l hopen _ hwhole =>
    have hroom := length_lt_of_isClosed hopen
    exact ⟨[], (m, n), hroom, .singleton _, rfl, .inr ⟨_, .inl rfl, hwhole.describesModule⟩⟩
  | @bound v v' m i n l ds r hopen _ _ himports hlive hwhole =>
    have hroom := length_lt_of_isClosed hopen
    have hbinds := BindsModule.of_mem_leads r himports (firstLive_mem hlive)
    exact ⟨[], (m, n), hroom, .singleton _, rfl, .inr ⟨i, .inr hbinds, hwhole.describesModule⟩⟩
  | @reexport v v' m i n n' l ds r hopen _ _ himports hlive _ ih =>
    obtain ⟨rest, last, hlength, hchain, hlast, hdescribes⟩ := ih
    have hstep := Reexports.of_mem_leads r himports (firstLive_mem hlive)
    have hle := firstLive_length_le hlive
    refine ⟨(i, n') :: rest, last, ?_, .cons_cons hstep hchain, ?_, hdescribes⟩
    · simp at hle hlength ⊢
      omega
    · rw [List.getLast?_cons_cons]
      exact hlast

/-- A location with source that is given for a name of a module describes what the name stands for
at the end of a chain of at most 16 re-exports from there, and shows lines of a file: it names the
first and the last of them, both within the file, and has exactly their text. -/
theorem locateStatic_sound {l : SymbolLocation} (hn : n ≠ "*")
    (h : locateStatic layout host roots ⟨m, some n⟩ = .ok l) (hs : l.hasSource = true) :
    ∃ (chain : List (ModuleIdentity × String)) (last : ModuleIdentity × String),
      chain.length ≤ 16 ∧ chain.head? = some (m, n) ∧
      chain.IsChain (Reexports layout host roots) ∧ chain.getLast? = some last ∧
      Describes layout host roots l last.1 last.2 ∧
      ∃ file first final, l.Shows host file first final := by
  have hcommitted := (locateStatic_hasSource_iff hn).mp ⟨h, hs⟩
  obtain ⟨rest, last, hlength, hchain, hlast, hdescribes⟩ := hcommitted.chain
  rw [List.length_nil, Nat.zero_add] at hlength
  exact ⟨(m, n) :: rest, last, hlength, rfl, hchain, hlast, hdescribes, hdescribes.shows⟩

/-- A package that passes on a function of one of its modules under another name. The lines of the
module end in two characters, and it binds the name twice. -/
def renamingHost : Host :=
  { files := ⟨[.directory "pkg" [
      .file "__init__.py" "from .api import *\n".toUTF8 false,
      .file "api.py" "import os\nfrom .core import run as start\n".toUTF8 false,
      .file "core.py" "run = None\r\n\r\ndef run():\r\n    return 1\r\n".toUTF8 false]]⟩ }

/-- Where the function is, seen from the package. -/
def renamedRun : SymbolLocation :=
  { file := some ⟨"/pkg/core.py"⟩
    excerpt := some ⟨3, ["def run():\r\n", "    return 1\r\n"]⟩
    representation := some "<function pkg.core.run>"
    qualifiedName := some "pkg.core.run" }

theorem locateStatic_renamingHost :
    locateStatic {} renamingHost [⟨"/"⟩] ⟨⟨["pkg"]⟩, some "start"⟩ = .ok renamedRun :=
  eq_ok_of_toOption (by decide +kernel)

theorem renamedRun_sound :
    locateStatic {} renamingHost [⟨"/"⟩] ⟨⟨["pkg"]⟩, some "start"⟩ = .ok renamedRun ∧
      ∃ (chain : List (ModuleIdentity × String)) (last : ModuleIdentity × String),
        chain.length ≤ 16 ∧ chain.head? = some (⟨["pkg"]⟩, "start") ∧
        chain.IsChain (Reexports {} renamingHost [⟨"/"⟩]) ∧ chain.getLast? = some last ∧
        Describes {} renamingHost [⟨"/"⟩] renamedRun last.1 last.2 ∧
        ∃ file first final, renamedRun.Shows renamingHost file first final :=
  ⟨locateStatic_renamingHost,
    locateStatic_sound (by decide) locateStatic_renamingHost (by decide)⟩

end ImportContext
