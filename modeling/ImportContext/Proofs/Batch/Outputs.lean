import ImportContext.Batch.Run
import ImportContext.Proofs.FileSystem.Writing
import Mathlib.Data.List.Induction

/-!
# Where bundles end up

Files are bundled one after the other, and each bundle is written where the path of its output
leads at that time. No later step leads that path elsewhere, so after the run the file there holds
the bundle of the last file whose output leads to it.

Results:
* `processFile_effect`: what one step does to the files.
* `exists_lastWriter`: after a run the place of an output holds the last bundle written there.
-/

namespace ImportContext

open FileSystem

/-- The file that a bundle was written to. -/
def FileOutcome.output? (o : FileOutcome) : Option Path :=
  match o.status with
  | .bundled _ _ output => output
  | _ => none

theorem isBundled_failureStatus (rel : Path) (e : BundleError) :
    FileOutcome.isBundled ⟨rel, failureStatus e⟩ = false := by
  unfold FileOutcome.isBundled failureStatus
  split
  · next hstatus =>
    split at hstatus
    · cases hstatus
    · split at hstatus
      · cases hstatus
      · cases hstatus
  · rfl

/-- A file that gives no bundle has no output. -/
theorem output?_of_isBundled_eq_false {o : FileOutcome} (h : o.isBundled = false) :
    o.output? = none := by
  rw [FileOutcome.output?]
  split
  · next hstatus =>
    rw [FileOutcome.isBundled, hstatus] at h
    cases h
  · rfl

theorem path_eq_of_cwd {h h' : Host} (hcwd : h'.cwd = h.cwd) (p : Path) : h'.path p = h.path p := by
  rw [Host.path, Host.path, hcwd]

/-! ## One step -/

section Step

variable {b : Bundler} {root : Path} {outputDir : Option Path} {h h' : Host} {p : Path}
  {text : String}

/-- A text was written where a path leads, with the directories that it needed. -/
structure Wrote (h h' : Host) (p : Path) (text : String) (names : List String) : Prop where
  leads : h'.files.resolve true (h.path p) = .ok names
  written : ∃ files, h.files.Keeps files ∧ WritesAt names text.toUTF8 files h'.files

theorem Wrote.extends {names : List String} (hw : Wrote h h' p text names) :
    h.files.Extends h'.files := by
  obtain ⟨files, hkeeps, hwrites⟩ := hw.written
  exact hkeeps.extends.trans hwrites.extends

theorem Wrote.held {names : List String} (hw : Wrote h h' p text names) :
    ∃ executable, h'.files.node? names = some (.file text.toUTF8 executable) := by
  obtain ⟨files, -, hwrites⟩ := hw.written
  exact hwrites.held

/-- Another place keeps what it holds. -/
theorem Wrote.others {names q : List String} {k : Node} (hw : Wrote h h' p text names)
    (hq : q ≠ names) (hk : h.files.node? q = some k) : h'.files.node? q = some k := by
  obtain ⟨files, hkeeps, hwrites⟩ := hw.written
  rw [hwrites.others q hq]
  exact hkeeps q k hk

/-- What writing a text into an existing directory does. -/
theorem writeFile_cases (h : Host) (p : Path) (text : String) :
    (∃ h' names, writeFile h p text = (.ok (), h') ∧ h'.cwd = h.cwd ∧ Wrote h h' p text names) ∨
      ∃ e, writeFile h p text = (.error e, h) := by
  rw [writeFile, Host.writeText]
  cases hwrite : h.files.writeFile (h.path p) text.toUTF8 with
  | error e => exact .inr ⟨_, rfl⟩
  | ok files =>
    obtain ⟨names, hplace, hwrites⟩ := writeFile_effect hwrite
    obtain ⟨executable, hheld⟩ := hwrites.held
    refine .inl ⟨{ h with files }, names, rfl, rfl, ?_, h.files, .refl _, hwrites⟩
    exact resolve_of_resolvePlace hwrites.extends hheld hplace

/-- A text is written, or what stands is kept. -/
theorem writeOutput_cases (h : Host) (p : Path) (text : String) :
    (∃ h' names, writeOutput h p text = (.ok (), h') ∧ h'.cwd = h.cwd ∧ Wrote h h' p text names) ∨
      ∃ e h', writeOutput h p text = (.error e, h') ∧ h'.cwd = h.cwd ∧
        h.files.Keeps h'.files := by
  rw [writeOutput]
  cases p.parent? with
  | none =>
    rcases writeFile_cases h p text with hok | ⟨e, he⟩
    · exact .inl hok
    · exact .inr ⟨e, h, he, rfl, .refl _⟩
  | some dir =>
    have hkeeps := createDirectories_keeps h.files (h.path dir)
    simp only [Host.createDirectories]
    cases hmake : h.files.createDirectories (h.path dir) with
    | mk result files =>
      rw [hmake] at hkeeps
      cases result with
      | error e => exact .inr ⟨_, { h with files }, rfl, rfl, hkeeps⟩
      | ok _ =>
        rcases writeFile_cases { h with files } p text with ⟨h', names, hok, hcwd, hw⟩ | ⟨e, he⟩
        · refine .inl ⟨h', names, hok, hcwd, hw.leads, ?_⟩
          obtain ⟨files', hkeeps', hwrites⟩ := hw.written
          exact ⟨files', hkeeps.trans hkeeps', hwrites⟩
        · exact .inr ⟨e, { h with files }, he, rfl, hkeeps⟩

/-- What one step of a batch does: it writes the bundle of its file, or keeps what stands. -/
theorem processFile_effect (b : Bundler) (root : Path) (outputDir : Option Path) (h : Host)
    (path : Path) :
    ∃ o h', processFile b root outputDir h path = (o, h') ∧ h'.cwd = h.cwd ∧
      (o.output? = none ∧ h.files.Keeps h'.files ∨
        ∃ dir bundle names, outputDir = some dir ∧ b.bundle h path = .ok bundle ∧
          o.output? = some (outputFile b.options.format dir o.path) ∧
          Wrote h h' (outputFile b.options.format dir o.path) bundle.text names) := by
  rw [processFile]
  cases hbundle : b.bundle h path with
  | error e =>
    have hnone := output?_of_isBundled_eq_false (isBundled_failureStatus (relativeTo root path) e)
    exact ⟨_, _, rfl, rfl, .inl ⟨hnone, .refl _⟩⟩
  | ok bundle =>
    cases outputDir with
    | none => exact ⟨_, _, rfl, rfl, .inl ⟨rfl, .refl _⟩⟩
    | some dir =>
      dsimp only
      rcases writeOutput_cases h (outputFile b.options.format dir (relativeTo root path))
        bundle.text with ⟨h', names, hwrite, hcwd, hw⟩ | ⟨e, h', hwrite, hcwd, hkeeps⟩
      · rw [hwrite]
        exact ⟨_, _, rfl, hcwd, .inr ⟨dir, bundle, names, rfl, rfl, rfl, hw⟩⟩
      · rw [hwrite]
        exact ⟨_, _, rfl, hcwd, .inl ⟨rfl, hkeeps⟩⟩

end Step

/-! ## Runs -/

section Run

variable {b : Bundler} {root : Path} {outputDir : Option Path} {h h' : Host} {p : Path}
  {paths : List Path} {outcomes : List FileOutcome} {i j : Nat} {names : List String}

theorem processAll_concat (b : Bundler) (root : Path) (outputDir : Option Path) (h : Host)
    (paths : List Path) (path : Path) :
    processAll b root outputDir h (paths ++ [path]) =
      let (outcomes, h) := processAll b root outputDir h paths
      let (outcome, h) := processFile b root outputDir h path
      (outcomes ++ [outcome], h) := by
  induction paths generalizing h with
  | nil => rfl
  | cons first rest ih =>
    rw [List.cons_append, processAll, processAll]
    simp only [ih]
    rfl

theorem length_processAll (b : Bundler) (root : Path) (outputDir : Option Path) (h : Host)
    (paths : List Path) : (processAll b root outputDir h paths).1.length = paths.length := by
  induction paths generalizing h with
  | nil => rfl
  | cons path rest ih =>
    rw [processAll]
    simp only [List.length_cons]
    rw [ih]

theorem cwd_processAll (b : Bundler) (root : Path) (outputDir : Option Path) (h : Host)
    (paths : List Path) : (processAll b root outputDir h paths).2.cwd = h.cwd := by
  induction paths generalizing h with
  | nil => rfl
  | cons path rest ih =>
    obtain ⟨o, h', hstep, hcwd, -⟩ := processFile_effect b root outputDir h path
    rw [processAll, hstep]
    simp only [ih]
    exact hcwd

/-- The output of the file at an index leads to a place. -/
def OutputLeads (h : Host) (outcomes : List FileOutcome) (i : Nat) (names : List String) : Prop :=
  ∃ o p, outcomes[i]? = some o ∧ o.output? = some p ∧
    h.files.resolve true (h.path p) = .ok names

/-- The file at index `j` is the last one whose bundle was written to a place. -/
structure LastWriter (b : Bundler) (root : Path) (outputDir : Option Path) (h : Host)
    (paths : List Path) (names : List String) (j : Nat) : Prop where
  leads : OutputLeads (processAll b root outputDir h paths).2
    (processAll b root outputDir h paths).1 j names
  last : ∀ l, j < l → ¬ OutputLeads (processAll b root outputDir h paths).2
    (processAll b root outputDir h paths).1 l names
  held : ∃ path bundle executable, paths[j]? = some path ∧
    b.bundle (processAll b root outputDir h (paths.take j)).2 path = .ok bundle ∧
    (processAll b root outputDir h paths).2.files.node? names =
      some (.file bundle.text.toUTF8 executable)

theorem OutputLeads.append (hl : OutputLeads h outcomes i names) (hcwd : h'.cwd = h.cwd)
    (hext : h.files.Extends h'.files) (later : List FileOutcome) :
    OutputLeads h' (outcomes ++ later) i names := by
  obtain ⟨o, p, ho, hp, hleads⟩ := hl
  refine ⟨o, p, ?_, hp, ?_⟩
  · rw [List.getElem?_append_left (List.getElem?_eq_some_iff.mp ho).1, ho]
  · rw [path_eq_of_cwd hcwd]
    exact resolve_mono hext hleads

theorem OutputLeads.unique {names' : List String} (hl : OutputLeads h outcomes i names)
    (hl' : OutputLeads h outcomes i names') : names = names' := by
  obtain ⟨o, p, ho, hp, hleads⟩ := hl
  obtain ⟨o', p', ho', hp', hleads'⟩ := hl'
  rw [ho] at ho'
  cases ho'
  rw [hp] at hp'
  cases hp'
  rw [hleads] at hleads'
  exact Except.ok.inj hleads'

/-- What a step behind a run does to the places of outputs. -/
theorem processAll_concat_effect (b : Bundler) (root : Path) (outputDir : Option Path) (h : Host)
    (paths : List Path) (path : Path) :
    ∃ o h', processAll b root outputDir h (paths ++ [path]) =
        ((processAll b root outputDir h paths).1 ++ [o], h') ∧
      h'.cwd = (processAll b root outputDir h paths).2.cwd ∧
      (o.output? = none ∧ (processAll b root outputDir h paths).2.files.Keeps h'.files ∨
        ∃ p bundle names, b.bundle (processAll b root outputDir h paths).2 path = .ok bundle ∧
          o.output? = some p ∧ Wrote (processAll b root outputDir h paths).2 h' p bundle.text names)
    := by
  obtain ⟨o, h', hstep, hcwd, heffect⟩ :=
    processFile_effect b root outputDir (processAll b root outputDir h paths).2 path
  refine ⟨o, h', ?_, hcwd, ?_⟩
  · rw [processAll_concat]
    simp only [hstep]
  · rcases heffect with hkept | ⟨dir, bundle, names, -, hbundle, hp, hw⟩
    · exact .inl hkept
    · exact .inr ⟨_, bundle, names, hbundle, hp, hw⟩

/-- Outputs lead somewhere after the run. -/
theorem processAll_leads (b : Bundler) (root : Path) (outputDir : Option Path) (h : Host)
    (paths : List Path) {o : FileOutcome} {p : Path}
    (ho : (processAll b root outputDir h paths).1[i]? = some o) (hp : o.output? = some p) :
    ∃ names, OutputLeads (processAll b root outputDir h paths).2
      (processAll b root outputDir h paths).1 i names := by
  induction paths using List.reverseRecOn with
  | nil => cases ho
  | append_singleton paths path ih =>
    obtain ⟨o', h', hrun, hcwd, heffect⟩ :=
      processAll_concat_effect b root outputDir h paths path
    rw [hrun] at ho ⊢
    rcases Nat.lt_or_ge i (processAll b root outputDir h paths).1.length with hlt | hge
    · rw [List.getElem?_append_left hlt] at ho
      obtain ⟨names, hleads⟩ := ih ho
      refine ⟨names, hleads.append hcwd ?_ _⟩
      rcases heffect with ⟨-, hkeeps⟩ | ⟨q, bundle, names', -, -, hw⟩
      · exact hkeeps.extends
      · exact hw.extends
    · obtain ⟨rfl, rfl⟩ : i = (processAll b root outputDir h paths).1.length ∧ o' = o := by
        rw [List.getElem?_append_right hge, List.getElem?_singleton] at ho
        split at ho
        · next hzero => exact ⟨by omega, Option.some.inj ho⟩
        · cases ho
      rcases heffect with ⟨hnone, -⟩ | ⟨q, bundle, names, -, hq, hw⟩
      · rw [hnone] at hp
        cases hp
      · refine ⟨names, o', q, ho, hq, ?_⟩
        rw [path_eq_of_cwd hcwd]
        exact hw.leads

/-- A step that does not write to a place leaves its last writer. -/
theorem LastWriter.concat (hlast : LastWriter b root outputDir h paths names j) {path : Path}
    {o : FileOutcome} (hrun : processAll b root outputDir h (paths ++ [path]) =
      ((processAll b root outputDir h paths).1 ++ [o], h'))
    (hcwd : h'.cwd = (processAll b root outputDir h paths).2.cwd)
    (hext : (processAll b root outputDir h paths).2.files.Extends h'.files)
    (hkept : ∀ k, (processAll b root outputDir h paths).2.files.node? names = some k →
      h'.files.node? names = some k)
    (hother : ∀ p, o.output? = some p → h'.files.resolve true (h'.path p) ≠ .ok names) :
    LastWriter b root outputDir h (paths ++ [path]) names j := by
  obtain ⟨source, bundle, executable, hsource, hbundle, hnode⟩ := hlast.held
  have hlt : j < paths.length := (List.getElem?_eq_some_iff.mp hsource).1
  refine ⟨?_, ?_, source, bundle, executable, ?_, ?_, ?_⟩
  · rw [hrun]
    exact hlast.leads.append hcwd hext _
  · intro l hl hleads
    rw [hrun] at hleads
    rcases Nat.lt_or_ge l (processAll b root outputDir h paths).1.length with hearlier | hlater
    · -- the output of an earlier file led to the same place before this step
      obtain ⟨o', p, ho', hp, -⟩ := id hleads
      rw [List.getElem?_append_left hearlier] at ho'
      obtain ⟨names', hbefore⟩ := processAll_leads b root outputDir h paths ho' hp
      obtain rfl := (hbefore.append hcwd hext [o]).unique hleads
      exact hlast.last l hl hbefore
    · obtain ⟨o', p, ho', hp, hresolve⟩ := hleads
      rw [List.getElem?_append_right hlater, List.getElem?_singleton] at ho'
      split at ho'
      · cases ho'
        exact hother p hp hresolve
      · cases ho'
  · rw [List.getElem?_append_left hlt, hsource]
  · rw [List.take_append_of_le_length (Nat.le_of_lt hlt)]
    exact hbundle
  · rw [hrun]
    exact hkept _ hnode

/-- A step that writes to a place is its last writer. -/
theorem lastWriter_concat {path : Path} {o : FileOutcome} {bundle : Bundle}
    (hrun : processAll b root outputDir h (paths ++ [path]) =
      ((processAll b root outputDir h paths).1 ++ [o], h'))
    (hcwd : h'.cwd = (processAll b root outputDir h paths).2.cwd)
    (hbundle : b.bundle (processAll b root outputDir h paths).2 path = .ok bundle)
    (hp : o.output? = some p)
    (hw : Wrote (processAll b root outputDir h paths).2 h' p bundle.text names) :
    LastWriter b root outputDir h (paths ++ [path]) names paths.length := by
  have hlength := length_processAll b root outputDir h paths
  have hcount : ((processAll b root outputDir h paths).1 ++ [o]).length = paths.length + 1 := by
    rw [List.length_append, hlength, List.length_singleton]
  obtain ⟨executable, hheld⟩ := hw.held
  refine ⟨?_, ?_, path, bundle, executable, ?_, ?_, ?_⟩
  · rw [hrun]
    refine ⟨o, p, ?_, hp, ?_⟩
    · rw [← hlength, List.getElem?_concat_length]
    · rw [path_eq_of_cwd hcwd]
      exact hw.leads
  · rintro l hl ⟨o', q, ho', -⟩
    rw [hrun] at ho'
    have hlt : l < ((processAll b root outputDir h paths).1 ++ [o]).length :=
      (List.getElem?_eq_some_iff.mp ho').1
    omega
  · exact List.getElem?_concat_length
  · rw [List.take_left]
    exact hbundle
  · rw [hrun]
    exact hheld

/-- After a run the place that an output leads to holds the bundle of its last writer, which is the
file of that output or a later one. -/
theorem exists_lastWriter (b : Bundler) (root : Path) (outputDir : Option Path) (h : Host)
    (paths : List Path)
    (hleads : OutputLeads (processAll b root outputDir h paths).2
      (processAll b root outputDir h paths).1 i names) :
    ∃ j, i ≤ j ∧ LastWriter b root outputDir h paths names j := by
  induction paths using List.reverseRecOn with
  | nil =>
    obtain ⟨o, p, ho, -⟩ := hleads
    cases ho
  | append_singleton paths path ih =>
    obtain ⟨o, h', hrun, hcwd, heffect⟩ := processAll_concat_effect b root outputDir h paths path
    have hext : (processAll b root outputDir h paths).2.files.Extends h'.files := by
      rcases heffect with ⟨-, hkeeps⟩ | ⟨q, bundle, names', -, -, hw⟩
      · exact hkeeps.extends
      · exact hw.extends
    have hindex : i ≤ paths.length := by
      obtain ⟨o', p, ho', -⟩ := id hleads
      have hlt := (List.getElem?_eq_some_iff.mp ho').1
      rw [hrun, List.length_append, length_processAll, List.length_singleton] at hlt
      omega
    -- an earlier output led to the place before this step too
    have hbefore : i < paths.length → OutputLeads (processAll b root outputDir h paths).2
        (processAll b root outputDir h paths).1 i names := by
      intro hlt
      obtain ⟨o', p, ho', hp, -⟩ := id hleads
      rw [hrun, List.getElem?_append_left (by rw [length_processAll]; exact hlt)] at ho'
      obtain ⟨names', hl⟩ := processAll_leads b root outputDir h paths ho' hp
      rw [hrun] at hleads
      obtain rfl := (hl.append hcwd hext [o]).unique hleads
      exact hl
    rcases heffect with ⟨hnone, hkeeps⟩ | ⟨q, bundle, names', hbundle, hq, hw⟩
    · have hlt : i < paths.length := by
        refine Nat.lt_of_le_of_ne hindex ?_
        rintro rfl
        obtain ⟨o', p, ho', hp, -⟩ := hleads
        rw [hrun, ← length_processAll b root outputDir h paths,
          List.getElem?_concat_length] at ho'
        cases ho'
        rw [hnone] at hp
        cases hp
      obtain ⟨j, hj, hlast⟩ := ih (hbefore hlt)
      refine ⟨j, hj, hlast.concat hrun hcwd hext (hkeeps names) ?_⟩
      intro p hp
      rw [hnone] at hp
      cases hp
    · by_cases hsame : names' = names
      · subst hsame
        exact ⟨paths.length, hindex, lastWriter_concat hrun hcwd hbundle hq hw⟩
      · have hlt : i < paths.length := by
          refine Nat.lt_of_le_of_ne hindex ?_
          rintro rfl
          have hself := (lastWriter_concat hrun hcwd hbundle hq hw).leads
          exact hsame (hself.unique hleads)
        obtain ⟨j, hj, hlast⟩ := ih (hbefore hlt)
        refine ⟨j, hj, hlast.concat hrun hcwd hext (fun k => hw.others (Ne.symm hsame)) ?_⟩
        intro p hp hresolve
        rw [hq] at hp
        cases hp
        rw [path_eq_of_cwd hcwd, hw.leads] at hresolve
        exact hsame (Except.ok.inj hresolve)

end Run

end ImportContext
