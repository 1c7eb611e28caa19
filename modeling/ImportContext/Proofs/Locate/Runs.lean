import Mathlib.Data.List.Nodup
import ImportContext.Proofs.Locate.Search

/-!
# Runs of a search

How a search goes on from module to module, without any bound on its depth: every pair that it may
enter it enters, and every lead that it comes to it follows. What bounds it is the list of the pairs
that were entered, which all branches share: it grows with every step into a module, holds no pair
twice and is full at `maxEntries`.

Results:
* `SearchRun.deterministic`: a search runs in one way.
* `SearchRun.entered`: the pairs that a run enters are new, and few.
* `exists_runs`, `exists_runs_locateStatic`: a search has a run, and gives its answer.
* `locateStatic_runs`: what is located by name is the answer of the one run of a search.
-/

namespace ImportContext

variable {layout : PackageLayout} {host : Host} {roots : SearchPath} {m : ModuleIdentity}
  {n : String} {v e : Visited}

/-! ## Steps -/

/-- What a search does with a pair that it enters. -/
inductive SearchMove where
  /-- It ends. -/
  | answer (a : Except LocateError SymbolLocation)
  /-- It follows leads. If they lead to nothing, something is known all the same. -/
  | follow (leads : List Lead) (known : SymbolLocation)

/-- The move for a name of a module: to its definition, else to a submodule, else along the
imports of the module. -/
def SearchMove.of (layout : PackageLayout) (host : Host) (roots : SearchPath) (m : ModuleIdentity)
    (n : String) : SearchMove :=
  match layout.findModule host roots m with
  | none => .answer (.ok .absent)
  | some found =>
    let submodule := layout.findModule host roots (m.join n)
    match found.code? with
    | none =>
      match submodule with
      | some sub => .answer (moduleLocation host (m.join n) sub)
      | none => .answer (.ok (memberFile m n found))
    | some path =>
      match StaticModule.load host m path with
      | .error e => .answer (.error e)
      | .ok s =>
        match s.definition? m n, submodule with
        | some l, _ => .answer (.ok l)
        | none, some sub => .answer (moduleLocation host (m.join n) sub)
        | none, none =>
          match s.imports with
          | .error e => .answer (.error e)
          | .ok ds => .follow (ds.filterMap (Lead.of? ⟨s.path, ⟨""⟩, m, found.isPackage⟩ n))
              (memberFile m n found)

/-- A search that may enter a pair makes the move for it. -/
theorem searchMember_eq_move (f : Nat) (hopen : isClosed v m n = false) :
    searchMember layout host roots (f + 1) v m n =
      match SearchMove.of layout host roots m n with
      | .answer a => a.map fun l => (l, v ++ [(m, n)])
      | .follow leads known =>
        (followLeads layout host roots (searchMember layout host roots f) (v ++ [(m, n)])
          leads).map fun p => (p.1.getD known, p.2) := by
  cases Presence.all layout host roots m with
  | missing hmissing =>
    rw [searchMember_missing hopen hmissing, SearchMove.of, hmissing]
    rfl
  | directory found hfound hcode =>
    rw [searchMember_directory hopen hfound hcode, SearchMove.of, hfound]
    simp only [hcode]
    cases layout.findModule host roots (m.join n) <;> rfl
  | unreadable found path e hfound hcode hload =>
    rw [searchMember_unreadable hopen hfound hcode hload, SearchMove.of, hfound]
    simp only [hcode, hload]
    rfl
  | read r =>
    rw [searchMember_read hopen r, SearchMove.of, r.found]
    simp only [r.code, r.load_eq]
    cases r.source.definition? m n with
    | some l => rfl
    | none =>
      cases layout.findModule host roots (m.join n) with
      | some sub => rfl
      | none => cases r.source.imports <;> rfl

/-! ## Runs -/

/-- What a search is about to do: look up a name of a module, or follow leads. -/
inductive SearchTask where
  | member (i : ModuleIdentity) (n : String)
  | leads (leads : List Lead)

/-- An answer that ends the search along leads: an error, or a location that is not absent. -/
def IsFinal (a : Except LocateError SymbolLocation) : Prop :=
  ∀ l, a = .ok l → l.isAbsent = false

/-- A search that has entered the pairs `v` does a task, enters more pairs on the way, in order,
and ends with an answer. Leads that lead to nothing are absent. -/
inductive SearchRun (layout : PackageLayout) (host : Host) (roots : SearchPath) :
    Visited → SearchTask → Visited → Except LocateError SymbolLocation → Prop
  | closed {v : Visited} {m : ModuleIdentity} {n : String} : isClosed v m n = true →
      SearchRun layout host roots v (.member m n) [] (.ok .absent)
  | ends {v : Visited} {m : ModuleIdentity} {n : String}
      {a : Except LocateError SymbolLocation} : isClosed v m n = false →
      SearchMove.of layout host roots m n = .answer a →
      SearchRun layout host roots v (.member m n) [(m, n)] a
  | follows {v e : Visited} {m : ModuleIdentity} {n : String} {leads : List Lead}
      {known : SymbolLocation} {a : Except LocateError SymbolLocation} :
      isClosed v m n = false → SearchMove.of layout host roots m n = .follow leads known →
      SearchRun layout host roots (v ++ [(m, n)]) (.leads leads) e a →
      SearchRun layout host roots v (.member m n) ((m, n) :: e)
        (a.map fun l => if l.isAbsent then known else l)
  | nothing {v : Visited} : SearchRun layout host roots v (.leads []) [] (.ok .absent)
  | module {v : Visited} {i : ModuleIdentity} {rest : List Lead} :
      IsFinal (locateModule layout host roots i) →
      SearchRun layout host roots v (.leads (.module i :: rest)) []
        (locateModule layout host roots i)
  | pastModule {v e : Visited} {i : ModuleIdentity} {rest : List Lead} {l : SymbolLocation}
      {a : Except LocateError SymbolLocation} : locateModule layout host roots i = .ok l →
      l.isAbsent = true → SearchRun layout host roots v (.leads rest) e a →
      SearchRun layout host roots v (.leads (.module i :: rest)) e a
  | member {v e : Visited} {i : ModuleIdentity} {n : String} {rest : List Lead}
      {a : Except LocateError SymbolLocation} : SearchRun layout host roots v (.member i n) e a →
      IsFinal a → SearchRun layout host roots v (.leads (.member i n :: rest)) e a
  | pastMember {v e e' : Visited} {i : ModuleIdentity} {n : String} {rest : List Lead}
      {l : SymbolLocation} {a : Except LocateError SymbolLocation} :
      SearchRun layout host roots v (.member i n) e (.ok l) → l.isAbsent = true →
      SearchRun layout host roots (v ++ e) (.leads rest) e' a →
      SearchRun layout host roots v (.leads (.member i n :: rest)) (e ++ e') a

variable {t : SearchTask} {a : Except LocateError SymbolLocation}

theorem isFinal_error (err : LocateError) : IsFinal (.error err) := by
  rintro l ⟨⟩

theorem isFinal_ok {l : SymbolLocation} (h : l.isAbsent = false) : IsFinal (.ok l) := by
  rintro l' ⟨⟩
  exact h

theorem not_isFinal {l : SymbolLocation} (h : l.isAbsent = true) :
    ¬ IsFinal (.ok l : Except LocateError SymbolLocation) := by
  intro hfinal
  rw [hfinal l rfl] at h
  cases h

/-- A search runs in one way. -/
theorem SearchRun.deterministic (h : SearchRun layout host roots v t e a) :
    ∀ {e' : Visited} {a' : Except LocateError SymbolLocation},
      SearchRun layout host roots v t e' a' → e' = e ∧ a' = a := by
  induction h with
  | closed hclosed =>
    intro e' a' h'
    cases h' with
    | closed => exact ⟨rfl, rfl⟩
    | ends hopen => rw [hclosed] at hopen; cases hopen
    | follows hopen => rw [hclosed] at hopen; cases hopen
  | ends hopen hmove =>
    intro e' a' h'
    cases h' with
    | closed hclosed => rw [hclosed] at hopen; cases hopen
    | ends _ hmove' => cases hmove.symm.trans hmove'; exact ⟨rfl, rfl⟩
    | follows _ hmove' => cases hmove.symm.trans hmove'
  | follows hopen hmove _ ih =>
    intro e' a' h'
    cases h' with
    | closed hclosed => rw [hclosed] at hopen; cases hopen
    | ends _ hmove' => cases hmove.symm.trans hmove'
    | follows _ hmove' hleads =>
      cases hmove.symm.trans hmove'
      obtain ⟨rfl, rfl⟩ := ih hleads
      exact ⟨rfl, rfl⟩
  | nothing =>
    intro e' a' h'
    cases h'
    exact ⟨rfl, rfl⟩
  | module hfinal =>
    intro e' a' h'
    cases h' with
    | module => exact ⟨rfl, rfl⟩
    | pastModule hl habsent => exact absurd (hl ▸ hfinal) (not_isFinal habsent)
  | pastModule hl habsent _ ih =>
    intro e' a' h'
    cases h' with
    | module hfinal => exact absurd (hl ▸ hfinal) (not_isFinal habsent)
    | pastModule _ _ hrest => exact ih hrest
  | member _ hfinal ih =>
    intro e' a' h'
    cases h' with
    | member hmember => exact ih hmember
    | pastMember hmember habsent =>
      obtain ⟨-, rfl⟩ := ih hmember
      exact absurd hfinal (not_isFinal habsent)
  | pastMember _ habsent _ ihMember ihRest =>
    intro e' a' h'
    cases h' with
    | member hmember hfinal =>
      obtain ⟨-, rfl⟩ := ihMember hmember
      exact absurd hfinal (not_isFinal habsent)
    | pastMember hmember _ hrest =>
      obtain ⟨rfl, -⟩ := ihMember hmember
      obtain ⟨rfl, rfl⟩ := ihRest hrest
      exact ⟨rfl, rfl⟩

/-- A pair that may be entered is new and leaves the list within its bound. -/
theorem entering (hopen : isClosed v m n = false) :
    (v ++ [(m, n)]).length ≤ maxEntries ∧ (v.Nodup → (v ++ [(m, n)]).Nodup) := by
  have hroom := length_lt_of_isClosed hopen
  have hnew : (m, n) ∉ v := by
    simp [isClosed] at hopen
    exact hopen.2
  refine ⟨by simpa using Nat.succ_le_of_lt hroom, fun hv => ?_⟩
  rw [← List.concat_eq_append]
  exact List.Nodup.concat hnew hv

/-- The pairs that a run enters are new, and with those before them they are at most as many as
one search may enter. -/
theorem SearchRun.entered (h : SearchRun layout host roots v t e a) (hv : v.length ≤ maxEntries)
    (hnodup : v.Nodup) : (v ++ e).length ≤ maxEntries ∧ (v ++ e).Nodup := by
  induction h with
  | closed => simpa using ⟨hv, hnodup⟩
  | ends hopen =>
    obtain ⟨hlength, hnew⟩ := entering hopen
    exact ⟨hlength, hnew hnodup⟩
  | follows hopen _ _ ih =>
    obtain ⟨hlength, hnew⟩ := entering hopen
    simpa using ih hlength (hnew hnodup)
  | nothing => simpa using ⟨hv, hnodup⟩
  | module => simpa using ⟨hv, hnodup⟩
  | pastModule _ _ _ ih => exact ih hv hnodup
  | member _ _ ih => exact ih hv hnodup
  | pastMember _ _ _ ihMember ihRest =>
    obtain ⟨hlength, hnodup⟩ := ihMember hv hnodup
    simpa using ihRest hlength hnodup

/-! ## Every search has a run -/

/-- Leads are followed as a run does, if members are looked up as runs do. -/
theorem exists_runs_leads {f : Nat}
    (hmember : ∀ v m n, maxEntries < f + v.length → ∃ e a,
      SearchRun layout host roots v (.member m n) e a ∧
        searchMember layout host roots f v m n = a.map fun l => (l, v ++ e))
    (leads : List Lead) : ∀ v, maxEntries < f + v.length → ∃ e a,
      SearchRun layout host roots v (.leads leads) e a ∧
        followLeads layout host roots (searchMember layout host roots f) v leads =
          a.map fun l => (if l.isAbsent then none else some l, v ++ e) := by
  induction leads with
  | nil =>
    intro v _
    refine ⟨[], _, .nothing, ?_⟩
    rw [List.append_nil]
    rfl
  | cons lead rest ih =>
    intro v hfuel
    cases lead with
    | module i =>
      cases hl : locateModule layout host roots i with
      | error err =>
        refine ⟨[], _, .module (hl ▸ isFinal_error err), ?_⟩
        simp only [followLeads, hl]
        rfl
      | ok l =>
        cases habsent : l.isAbsent with
        | true =>
          obtain ⟨e, a, hruns, heq⟩ := ih v hfuel
          refine ⟨e, a, .pastModule hl habsent hruns, ?_⟩
          rw [← heq]
          simp [followLeads, hl, habsent, Except.map, bind, Except.bind]
        | false =>
          refine ⟨[], _, .module (hl ▸ isFinal_ok habsent), ?_⟩
          simp [followLeads, hl, habsent, Except.map, bind, Except.bind]
    | member i n =>
      obtain ⟨e, a, hruns, heq⟩ := hmember v i n hfuel
      cases a with
      | error err =>
        refine ⟨e, _, .member hruns (isFinal_error err), ?_⟩
        simp only [followLeads, heq]
        rfl
      | ok l =>
        cases habsent : l.isAbsent with
        | true =>
          obtain ⟨e', a, hruns', heq'⟩ := ih (v ++ e) (by simp; omega)
          refine ⟨e ++ e', a, .pastMember hruns habsent hruns', ?_⟩
          rw [← List.append_assoc, ← heq']
          simp [followLeads, heq, habsent, Except.map, bind, Except.bind]
        | false =>
          refine ⟨e, _, .member hruns (isFinal_ok habsent), ?_⟩
          simp [followLeads, heq, habsent, Except.map, bind, Except.bind]

/-- A search has a run and gives its answer, as soon as its depth is bounded by no less than the
pairs that are left. -/
theorem exists_runs (f : Nat) : ∀ v m n, maxEntries < f + v.length → ∃ e a,
    SearchRun layout host roots v (.member m n) e a ∧
      searchMember layout host roots f v m n = a.map fun l => (l, v ++ e) := by
  induction f with
  | zero =>
    intro v m n hfuel
    have hclosed : isClosed v m n = true := by
      rw [isClosed, Bool.or_eq_true, decide_eq_true_eq]
      exact .inl (by omega)
    exact ⟨[], _, .closed hclosed, by simp [searchMember_closed hclosed, Except.map]⟩
  | succ f ih =>
    intro v m n hfuel
    cases hopen : isClosed v m n with
    | true => exact ⟨[], _, .closed hopen, by simp [searchMember_closed hopen, Except.map]⟩
    | false =>
      rw [searchMember_eq_move f hopen]
      cases hmove : SearchMove.of layout host roots m n with
      | answer a => exact ⟨_, _, .ends hopen hmove, rfl⟩
      | follow leads known =>
        obtain ⟨e, a, hruns, heq⟩ := exists_runs_leads ih leads (v ++ [(m, n)]) (by simp; omega)
        refine ⟨_, _, .follows hopen hmove hruns, ?_⟩
        dsimp only
        rw [heq]
        cases a with
        | error err => rfl
        | ok l => cases habsent : l.isAbsent <;> simp [Except.map, habsent]

/-- What is located by name is the answer of a run. -/
theorem exists_runs_locateStatic (hn : n ≠ "*") :
    ∃ e, SearchRun layout host roots [] (.member m n) e
      (locateStatic layout host roots ⟨m, some n⟩) := by
  obtain ⟨e, a, hruns, heq⟩ : ∃ e a, SearchRun layout host roots [] (.member m n) e a ∧
      searchMember layout host roots (maxEntries + 1) [] m n = a.map fun l => (l, [] ++ e) :=
    exists_runs (maxEntries + 1) [] m n (by simp)
  have hanswer : locateStatic layout host roots ⟨m, some n⟩ = a := by
    rw [locateStatic_member hn, heq]
    cases a <;> rfl
  exact ⟨e, hanswer ▸ hruns⟩

/-- Locating a name of a module ends: the search for it, which nothing bounds but the pairs that it
has entered, has one run and gives its answer. The run enters at most 16 pairs of module and name,
no two of them the same. -/
theorem locateStatic_runs (hn : n ≠ "*") :
    ∃ entered answer, SearchRun layout host roots [] (.member m n) entered answer ∧
      (∀ entered' answer', SearchRun layout host roots [] (.member m n) entered' answer' →
        entered' = entered ∧ answer' = answer) ∧
      locateStatic layout host roots ⟨m, some n⟩ = answer ∧
      entered.length ≤ 16 ∧ entered.Nodup := by
  obtain ⟨e, hruns⟩ : ∃ e, SearchRun layout host roots [] (.member m n) e
      (locateStatic layout host roots ⟨m, some n⟩) :=
    exists_runs_locateStatic hn
  obtain ⟨hlength, hnodup⟩ := hruns.entered (Nat.zero_le _) List.nodup_nil
  exact ⟨e, _, hruns, fun _ _ h' => hruns.deterministic h', rfl, hlength, hnodup⟩

/-- Modules that take names from each other in a ring, one of them also from itself, and a module
that does not parse. -/
def ringHost : Host :=
  { files := ⟨[
      .file "ring.py" "from gone import *\nfrom ring import *\nfrom chain import link as x\n".toUTF8
        false,
      .file "chain.py" "from ring import x as link\n".toUTF8 false,
      .file "broken.py" "def oops(:\n".toUTF8 false]⟩ }

theorem locateStatic_runs_ring :
    "x" ≠ "*" ∧ ∃ entered answer,
      SearchRun {} ringHost [⟨"/"⟩] [] (.member ⟨["ring"]⟩ "x") entered answer ∧
        (∀ entered' answer',
          SearchRun {} ringHost [⟨"/"⟩] [] (.member ⟨["ring"]⟩ "x") entered' answer' →
            entered' = entered ∧ answer' = answer) ∧
        locateStatic {} ringHost [⟨"/"⟩] ⟨⟨["ring"]⟩, some "x"⟩ = answer ∧
        entered.length ≤ 16 ∧ entered.Nodup :=
  ⟨by decide, locateStatic_runs (by decide)⟩

end ImportContext
