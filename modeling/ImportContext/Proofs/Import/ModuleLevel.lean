import ImportContext.Proofs.Import.Positions
import Mathlib.Data.List.Flatten
import Mathlib.Data.List.Nodup

/-!
# Declarations outside functions and classes

Two runs over the same statements give all declarations of a text and those that are made when the
module itself is loaded. The second one leaves out the bodies of functions and classes. What it
finds is told by the statements around an import statement alone: since no two import statements
stand at one position, the position of a declaration says which statement it comes from.

Main definitions: `Occurrence`, `occurrencesIn`.

Results:
* `map_statement_moduleLevel`: leaving out bodies leaves out what stands in a definition.
* `ImportsBetween.increasing`: import statements stand at increasing positions.
* `moduleLevelImports_exact`: which of all declarations are those of the module.
-/

namespace ImportContext

open Source

/-! ## Import statements and what is around them -/

/-- A statement with a body, as it is seen from within. -/
inductive Enclosure where
  | definition (kind : DefinitionKind) (name : String)
  | block
deriving DecidableEq, Repr

def Enclosure.isDefinition : Enclosure → Bool
  | definition _ _ => true
  | block => false

/-- An import statement with all statements around it, the outermost one first. -/
structure Occurrence where
  statement : ImportStatement
  around : List Enclosure
deriving DecidableEq, Repr

/-- No function and no class is around the import statement. -/
def Occurrence.isModuleLevel (o : Occurrence) : Bool :=
  o.around.all (!·.isDefinition)

mutual

/-- The import statements of a statement that stands in others, in order. -/
def Source.Statement.occurrences (around : List Enclosure) : Statement → List Occurrence
  | .importing s => [⟨s, around⟩]
  | .assigning _ _ => []
  | .defining kind name _ body => occurrencesIn (around ++ [.definition kind name]) body
  | .compound body => occurrencesIn (around ++ [.block]) body
  | .other => []

/-- The import statements of a list of statements that stands in others, in order. -/
def occurrencesIn (around : List Enclosure) : List Statement → List Occurrence
  | [] => []
  | s :: rest => s.occurrences around ++ occurrencesIn around rest

end

mutual

/-- The import statements of a statement, those in functions and classes included. -/
theorem Source.Statement.map_statement_occurrences (around : List Enclosure) (s : Statement) :
    (s.occurrences around).map (·.statement) = s.imports true := by
  match s with
  | .importing s => rfl
  | .assigning names lines => rfl
  | .defining kind name lines body =>
    rw [Statement.occurrences, Statement.imports, if_pos rfl, map_statement_occurrencesIn]
  | .compound body => rw [Statement.occurrences, Statement.imports, map_statement_occurrencesIn]
  | .other => rfl

theorem map_statement_occurrencesIn (around : List Enclosure) (body : List Statement) :
    (occurrencesIn around body).map (·.statement) = importsIn true body := by
  match body with
  | [] => rfl
  | s :: rest =>
    rw [occurrencesIn, importsIn, List.map_append, s.map_statement_occurrences,
      map_statement_occurrencesIn]

end

mutual

/-- Leaving out the bodies of functions and classes leaves out what stands in a definition, and
nothing else. -/
theorem Source.Statement.map_statement_moduleLevel (around : List Enclosure) (s : Statement) :
    ((s.occurrences around).filter (·.isModuleLevel)).map (·.statement) =
      if around.all (!·.isDefinition) then s.imports false else [] := by
  match s with
  | .importing s =>
    rw [Statement.occurrences, Statement.imports, List.filter_cons, Occurrence.isModuleLevel]
    split <;> rfl
  | .assigning names lines => exact (ite_self _).symm
  | .defining kind name lines body =>
    rw [Statement.occurrences, Statement.imports, map_statement_moduleLevel]
    simp [Enclosure.isDefinition]
  | .compound body =>
    rw [Statement.occurrences, Statement.imports, map_statement_moduleLevel]
    simp [Enclosure.isDefinition]
  | .other => exact (ite_self _).symm

theorem map_statement_moduleLevel (around : List Enclosure) (body : List Statement) :
    ((occurrencesIn around body).filter (·.isModuleLevel)).map (·.statement) =
      if around.all (!·.isDefinition) then importsIn false body else [] := by
  match body with
  | [] => exact (ite_self _).symm
  | s :: rest =>
    rw [occurrencesIn, importsIn, List.filter_append, List.map_append,
      s.map_statement_moduleLevel, map_statement_moduleLevel]
    split <;> rfl

end

/-! ## Positions -/

namespace Source

variable {k k' : Cursor} {ss : List ImportStatement}

theorem ImportsBetween.key_le (h : ImportsBetween k ss k') : ∀ s ∈ ss, k.pos.key ≤ s.pos.key := by
  induction h with
  | nil _ => simp
  | cons hreach hat _ ih =>
    obtain ⟨hpos, -, hlt⟩ := hat.begins
    refine List.forall_mem_cons.mpr ⟨hpos ▸ hreach.key_le, fun s hs => ?_⟩
    exact hreach.key_le.trans (hlt.le.trans (ih s hs))

/-- Import statements stand at increasing positions. -/
theorem ImportsBetween.increasing (h : ImportsBetween k ss k') :
    ss.Pairwise (·.pos.key < ·.pos.key) := by
  induction h with
  | nil _ => exact List.Pairwise.nil
  | cons _ hat hrest ih =>
    obtain ⟨hpos, -, hlt⟩ := hat.begins
    refine List.pairwise_cons.mpr ⟨fun s hs => ?_, ih⟩
    rw [hpos]
    exact hlt.trans_le (hrest.key_le s hs)

end Source

/-- No two import statements of a text stand at one position. -/
theorem occurrencesIn_increasing {source : String} {body : List Statement}
    (h : readSource? source = some body) :
    (occurrencesIn [] body).Pairwise (·.statement.pos.key < ·.statement.pos.key) := by
  obtain ⟨k', hbetween⟩ := readSource?_imports h
  have hincreasing := hbetween.increasing
  rwa [← map_statement_occurrencesIn [], List.pairwise_map] at hincreasing

theorem eq_of_pos_eq {os : List Occurrence} {o o' : Occurrence}
    (h : os.Pairwise (·.statement.pos.key < ·.statement.pos.key)) (ho : o ∈ os) (ho' : o' ∈ os)
    (hpos : o.statement.pos = o'.statement.pos) : o = o' := by
  have hnodup : (os.map (·.statement.pos)).Nodup := by
    refine List.pairwise_map.mpr (h.imp fun hlt heq => ?_)
    rw [heq] at hlt
    exact lt_irrefl _ hlt
  exact List.inj_on_of_nodup_map hnodup ho ho' hpos

/-! ## Declarations -/

/-- What a statement declares, nothing if it is refused. -/
def Source.ImportStatement.declared? (s : ImportStatement) : List ImportDeclaration :=
  s.declarations.toOption.getD []

theorem declarationsOf_eq_ok_iff {ss : List ImportStatement} {ds : List ImportDeclaration} :
    declarationsOf ss = .ok ds ↔
      (∀ s ∈ ss, s.declarations = .ok s.declared?) ∧ ds = ss.flatMap (·.declared?) := by
  have hok (s : ImportStatement) (group : List ImportDeclaration) :
      s.declarations = .ok group ↔ s.declarations = .ok s.declared? ∧ group = s.declared? := by
    constructor
    · intro h
      have hgroup : s.declared? = group := by rw [ImportStatement.declared?, h]; rfl
      exact ⟨hgroup ▸ h, hgroup.symm⟩
    · rintro ⟨h, rfl⟩
      exact h
  rw [declarationsOf, bind_eq_ok_iff]
  constructor
  · rintro ⟨groups, hgroups, h⟩
    obtain ⟨hall, rfl⟩ := (mapM_eq_ok_iff_of hok).mp hgroups
    exact ⟨hall, (Except.ok.inj h).symm⟩
  · rintro ⟨hall, rfl⟩
    exact ⟨_, (mapM_eq_ok_iff_of hok).mpr ⟨hall, rfl⟩, rfl⟩

theorem flatMap_filter {α β : Type} (P : α → Bool) (g : α → List β) (l : List α) :
    (l.filter P).flatMap g = l.flatMap fun a => (g a).filter fun _ => P a := by
  induction l with
  | nil => rfl
  | cons a l ih =>
    rw [List.filter_cons, List.flatMap_cons, ← ih]
    cases P a <;> simp

/-- The declarations of some of several statements are those at positions of these. -/
theorem flatMap_declared_filter {os : List Occurrence}
    (hincreasing : os.Pairwise (·.statement.pos.key < ·.statement.pos.key))
    (hall : ∀ o ∈ os, o.statement.declarations = .ok o.statement.declared?)
    (P : Occurrence → Bool) :
    (os.filter P).flatMap (·.statement.declared?) =
      (os.flatMap (·.statement.declared?)).filter fun d =>
        os.any fun o => o.statement.pos = d.pos && P o := by
  rw [flatMap_filter, List.filter_flatMap]
  refine List.flatMap_congr fun o ho => List.filter_congr fun d hd => ?_
  have hpos : d.pos = o.statement.pos := (ImportStatement.declared (hall o ho) hd).1
  rw [Bool.eq_iff_iff, List.any_eq_true]
  constructor
  · intro hP
    exact ⟨o, ho, by simp [hpos, hP]⟩
  · rintro ⟨o', ho', h⟩
    obtain ⟨hpos', hP⟩ := Bool.and_eq_true_iff.mp h
    rwa [← eq_of_pos_eq hincreasing ho' ho ((of_decide_eq_true hpos').trans hpos)]

/-- A text with a list of all declarations has one of those of the module. It has, in the same
order, exactly the declarations whose statement, the only one at their position, stands in no
function and in no class. -/
theorem moduleLevelImports_exact {source : String} {body : List Statement}
    {ds : List ImportDeclaration} (hbody : parseSource source = .ok body)
    (h : extractImports source = .ok ds) :
    ∃ ms, moduleLevelImports body = .ok ms ∧ ms.Sublist ds ∧
      (∀ d ∈ ds, ∃ o ∈ occurrencesIn [] body,
        (∃ group, o.statement.declarations = .ok group ∧ d ∈ group) ∧
        ∀ o' ∈ occurrencesIn [] body, o'.statement.pos = d.pos ↔ o' = o) ∧
      ms = ds.filter fun d =>
        (occurrencesIn [] body).any fun o => o.statement.pos = d.pos && o.isModuleLevel := by
  obtain ⟨body', hread, hds⟩ := extractImports_eq_ok_iff.mp h
  obtain rfl : body' = body := by
    rw [parseSource, hread] at hbody
    exact Except.ok.inj hbody
  have hincreasing := occurrencesIn_increasing hread
  have hnested := map_statement_occurrencesIn [] body'
  have hmodule : ((occurrencesIn [] body').filter (·.isModuleLevel)).map (·.statement) =
      importsIn false body' := map_statement_moduleLevel [] body'
  rw [← hnested, declarationsOf_eq_ok_iff, List.flatMap_map, List.forall_mem_map] at hds
  obtain ⟨hall, rfl⟩ := hds
  have hsome : ∀ o ∈ (occurrencesIn [] body').filter (·.isModuleLevel),
      o.statement.declarations = .ok o.statement.declared? :=
    fun o ho => hall o (List.mem_of_mem_filter ho)
  refine ⟨_, ?_, List.filter_sublist, ?_, rfl⟩
  · rw [moduleLevelImports, ← hmodule, declarationsOf_eq_ok_iff, List.flatMap_map,
      List.forall_mem_map]
    exact ⟨hsome, (flatMap_declared_filter hincreasing hall _).symm⟩
  · intro d hd
    obtain ⟨o, ho, hd⟩ := List.mem_flatMap.mp hd
    have hpos : d.pos = o.statement.pos := (ImportStatement.declared (hall o ho) hd).1
    refine ⟨o, ho, ⟨_, hall o ho, hd⟩, fun o' ho' => ⟨fun hpos' => ?_, ?_⟩⟩
    · exact eq_of_pos_eq hincreasing ho' ho (hpos'.trans hpos)
    · rintro rfl
      exact hpos.symm

/-- An import in a method of a decorated class is left out, those of a loop beside it are not. -/
theorem moduleLevelImports_exact_nested :
    let source := "if a:\n @d\n class C:\n  def f(self): import b\n for x in a:\n  import c, e\n"
    let ms : List ImportDeclaration := [.plain ⟨"c", none, ⟨6, 2⟩⟩, .plain ⟨"e", none, ⟨6, 2⟩⟩]
    let ds : List ImportDeclaration := .plain ⟨"b", none, ⟨4, 15⟩⟩ :: ms
    ∃ body, parseSource source = .ok body ∧ extractImports source = .ok ds ∧
      moduleLevelImports body = .ok ms ∧ ms.Sublist ds ∧
      ms = ds.filter fun d =>
        (occurrencesIn [] body).any fun o => o.statement.pos = d.pos && o.isModuleLevel := by
  intro source ms ds
  have hds : extractImports source = .ok ds := eq_ok_of_toOption (by decide +kernel)
  have hms : parseSource source >>= moduleLevelImports = .ok ms :=
    eq_ok_of_toOption (by decide +kernel)
  obtain ⟨body, hbody, hms⟩ := bind_eq_ok_iff.mp hms
  obtain ⟨ms', hms', hsublist, -, hfilter⟩ := moduleLevelImports_exact hbody hds
  obtain rfl : ms' = ms := Except.ok.inj (hms'.symm.trans hms)
  exact ⟨body, hbody, hds, hms, hsublist, hfilter⟩

end ImportContext
