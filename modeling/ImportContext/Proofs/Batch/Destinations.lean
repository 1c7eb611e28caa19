import ImportContext.Proofs.Batch.Outputs
import ImportContext.Proofs.Batch.Sources

/-!
# Which files share an output

The output of a file replaces its extension, so files of one directory whose names differ only in
their extensions have the same output, and no other files do. Of the bundles that go to one place
the last one stays.

Results:
* `pieces_outputFile`: the pieces of an output.
* `outputFile_eq_iff`: when two files have the same output.
* `runBatch_outputs`: which outputs of a batch agree, and what they hold after the run.
* `outputs_shared`: two files with one output, which holds only the second bundle.
-/

namespace ImportContext

open ImportContext.Path

/-! ## Outputs -/

section Output

variable {format : BundleFormat} {dir : Path} {n : String} {ns names names' : List String}

theorem mem_of_mem_stem {c : Char} (h : c ∈ (stem n).toList) : c ∈ n.toList := by
  rw [stem, splitExtension] at h
  split at h
  · exact h
  · rw [String.toList_ofList, List.mem_reverse] at h
    have hmem := List.mem_of_mem_drop h
    exact List.mem_reverse.mp ((List.dropWhile_sublist _).mem hmem)

/-- A name with the extension of an output is an ordinary name. -/
theorem isName_output (format : BundleFormat) (hn : IsName n) :
    IsName (stem n ++ "." ++ format.extension) := by
  have hlength : 2 < (stem n ++ "." ++ format.extension).length := by
    have hextension : 1 < format.extension.length := by cases format <;> decide
    rw [String.length_append, String.length_append, show ".".length = 1 from rfl]
    omega
  refine ⟨?_, ?_, ?_, ?_⟩
  · intro h
    rw [h] at hlength
    exact absurd hlength (by decide)
  · intro h
    rw [h] at hlength
    exact absurd hlength (by decide)
  · intro h
    rw [h] at hlength
    exact absurd hlength (by decide)
  · have hstem : '/' ∉ (stem n).toList := fun h => hn.2.2.2 (mem_of_mem_stem h)
    cases format <;> simp [BundleFormat.extension, hstem]

/-- An output has an ordinary name, or nothing but dots is left of the name of its file. -/
theorem replaceExtension_cases (n ext : String) :
    stem n ≠ "." ∧ replaceExtension n ext = stem n ++ "." ++ ext ∨
      stem n = "." ∧ replaceExtension n ext = ".." := by
  rw [replaceExtension]
  by_cases hdot : stem n = "."
  · exact .inr ⟨hdot, if_pos (by simpa using hdot)⟩
  · exact .inl ⟨hdot, if_neg (by simpa using hdot)⟩

theorem isIdle_replaceExtension (format : BundleFormat) (hn : IsName n) :
    isIdle (replaceExtension n format.extension) = false := by
  rcases replaceExtension_cases n format.extension with ⟨-, heq⟩ | ⟨-, heq⟩
  · rw [heq]
    exact isIdle_of_isName (isName_output format hn)
  · rw [heq]
    decide

theorem slash_not_mem_output (format : BundleFormat) (hn : IsName n) :
    '/' ∉ (replaceExtension n format.extension).toList := by
  rcases replaceExtension_cases n format.extension with ⟨-, heq⟩ | ⟨-, heq⟩
  · rw [heq]
    exact (isName_output format hn).2.2.2
  · rw [heq]
    decide

/-- Outputs have the same name if their files do but for the extensions. -/
theorem replaceExtension_eq_iff (format : BundleFormat) (hn : IsName n) {n' : String}
    (hn' : IsName n') :
    replaceExtension n format.extension = replaceExtension n' format.extension ↔
      stem n = stem n' := by
  have hname := (isName_output format hn).2.2.1
  have hname' := (isName_output format hn').2.2.1
  rcases replaceExtension_cases n format.extension with ⟨hdot, heq⟩ | ⟨hdot, heq⟩
  · rcases replaceExtension_cases n' format.extension with ⟨-, heq'⟩ | ⟨hdot', heq'⟩
    · rw [heq, heq', String.append_assoc, String.append_assoc]
      exact String.append_left_inj _
    · rw [heq, heq', hdot']
      exact iff_of_false hname hdot
  · rcases replaceExtension_cases n' format.extension with ⟨hdot', heq'⟩ | ⟨hdot', heq'⟩
    · rw [heq, heq', hdot]
      exact iff_of_false (Ne.symm hname') (Ne.symm hdot')
    · exact iff_of_true (heq.trans heq'.symm) (hdot.trans hdot'.symm)

/-- The output of a file is written behind the output directory, with another extension. -/
theorem pieces_outputFile (format : BundleFormat) (dir : Path)
    (h : ∀ s ∈ ns ++ [n], IsName s) : (outputFile format dir (ofPieces (ns ++ [n]))).pieces =
      dir.front ++ ns ++ [replaceExtension n format.extension] := by
  have hn : IsName n := h n (by simp)
  have hjoin : (dir.join (ofPieces (ns ++ [n]))).pieces = dir.front ++ ns ++ [n] := by
    rw [pieces_join (isAbsolute_ofPieces h), pieces_ofPieces (by simp) fun s hs => (h s hs).2.2.2,
      List.append_assoc]
  rw [outputFile, withExtension_of_pieces hjoin hn]
  refine pieces_ofPieces (by simp) ?_
  intro s hs
  rcases List.mem_append.mp hs with hs | hs
  · rcases List.mem_append.mp hs with hs | hs
    · exact slash_not_mem_front hs
    · exact (h s (List.mem_append_left _ hs)).2.2.2
  · obtain rfl := List.mem_singleton.mp hs
    exact slash_not_mem_output format hn

/-- Two paths are the same but for the extensions of their last names. -/
def SameButExtension (p q : Path) : Prop :=
  p.names.dropLast = q.names.dropLast ∧ p.names.getLast?.map stem = q.names.getLast?.map stem

instance (p q : Path) : Decidable (SameButExtension p q) :=
  inferInstanceAs (Decidable (_ ∧ _))

/-- Two files have the same output if their paths are the same but for the extensions. -/
theorem outputFile_eq_iff (hne : names ≠ []) (h : ∀ s ∈ names, IsName s) (hne' : names' ≠ [])
    (h' : ∀ s ∈ names', IsName s) :
    outputFile format dir (ofPieces names) = outputFile format dir (ofPieces names') ↔
      SameButExtension (ofPieces names) (ofPieces names') := by
  rw [SameButExtension, names_ofPieces h, names_ofPieces h']
  cases names using List.reverseRecOn with
  | nil => exact absurd rfl hne
  | append_singleton ns n =>
    cases names' using List.reverseRecOn with
    | nil => exact absurd rfl hne'
    | append_singleton ns' n' =>
      have hpieces := pieces_outputFile format dir h
      have hpieces' := pieces_outputFile format dir h'
      have hiff := replaceExtension_eq_iff format (h n (by simp)) (h' n' (by simp))
      simp only [List.dropLast_concat, List.getLast?_concat, Option.map_some, Option.some.injEq]
      constructor
      · intro heq
        rw [heq, hpieces'] at hpieces
        obtain ⟨hfront, hlast⟩ := List.append_inj' hpieces rfl
        have hname := (List.cons.inj hlast).1
        exact ⟨(List.append_cancel_left hfront).symm, (hiff.mp hname.symm)⟩
      · rintro ⟨rfl, hstem⟩
        refine eq_of_pieces ?_
        rw [hpieces, hpieces', hiff.mpr hstem]

end Output

/-! ## Batches -/

section Batch

variable {b : Bundler} {root dir : Path} {outputDir : Option Path} {options : BatchOptions}
  {h h' : Host} {paths : List Path} {o : FileOutcome} {outcomes : List FileOutcome}

/-- What one step says of its file. -/
theorem processFile_outcome (b : Bundler) (root : Path) (outputDir : Option Path) (h : Host)
    (path : Path) : (processFile b root outputDir h path).1.path = relativeTo root path ∧
      ((processFile b root outputDir h path).1.isBundled = true →
        (processFile b root outputDir h path).1.output? =
          outputDir.map fun dir => outputFile b.options.format dir (relativeTo root path)) := by
  rw [processFile]
  split
  · next e _ =>
    refine ⟨rfl, fun hbundled => ?_⟩
    rw [isBundled_failureStatus] at hbundled
    cases hbundled
  · next bundle _ =>
    cases outputDir with
    | none => exact ⟨rfl, fun _ => rfl⟩
    | some dir =>
      dsimp only
      split
      · exact ⟨rfl, fun _ => rfl⟩
      · refine ⟨rfl, fun hbundled => ?_⟩
        cases hbundled

theorem processAll_outcome (ho : o ∈ (processAll b root outputDir h paths).1) :
    ∃ path ∈ paths, o.path = relativeTo root path ∧ (o.isBundled = true →
      o.output? = outputDir.map fun dir => outputFile b.options.format dir o.path) := by
  induction paths generalizing h with
  | nil => cases ho
  | cons path rest ih =>
    rw [processAll] at ho
    rcases List.mem_cons.mp ho with rfl | ho
    · obtain ⟨hpath, houtput⟩ := processFile_outcome b root outputDir h path
      refine ⟨path, List.mem_cons_self, hpath, ?_⟩
      rw [hpath]
      exact houtput
    · obtain ⟨path', hpath', houtcome⟩ := ih ho
      exact ⟨path', List.mem_cons_of_mem _ hpath', houtcome⟩

theorem isBundled_of_output? {p : Path} (hp : o.output? = some p) : o.isBundled = true := by
  cases hbundled : o.isBundled with
  | true => rfl
  | false =>
    rw [output?_of_isBundled_eq_false hbundled] at hp
    cases hp

/-- Which outputs of a batch agree, and what they hold after it: the bundle that the last file
whose output leads to the same place had at its turn. -/
theorem runBatch_outputs (hfs : h.files.isWellFormed = true) (hdir : options.outputDir = some dir)
    (hrun : runBatch b h root options = .ok (outcomes, h')) :
    (∀ o ∈ outcomes, o.isBundled = true → ∃ p, o.output? = some p) ∧
      (∀ o ∈ outcomes, ∀ o' ∈ outcomes, ∀ p p', o.output? = some p → o'.output? = some p' →
        (p = p' ↔ SameButExtension o.path o'.path)) ∧
      ∃ files, BatchFiles b h root options files ∧ ∀ i o p, outcomes[i]? = some o →
        o.output? = some p → ∃ j path bundle names, i ≤ j ∧ files[j]? = some path ∧
          b.bundle (processAll b root options.outputDir h (files.take j)).2 path = .ok bundle ∧
          OutputLeads h' outcomes i names ∧ OutputLeads h' outcomes j names ∧
          (∀ l, j < l → ¬ OutputLeads h' outcomes l names) ∧
          h'.files.readBytes (h'.path p) = .ok bundle.text.toUTF8 := by
  obtain ⟨files, hfiles, hall⟩ := runBatch_eq_ok_iff.mp hrun
  have houtcomes : outcomes = (processAll b root options.outputDir h files).1 := by rw [hall]
  have hhost : h' = (processAll b root options.outputDir h files).2 := by rw [hall]
  have hroot := text_ne_empty_of_isDirectory hfiles.isDirectory
  refine ⟨?_, ?_, files, hfiles, ?_⟩
  · intro o ho hbundled
    obtain ⟨path, -, -, houtput⟩ := processAll_outcome (houtcomes ▸ ho)
    exact ⟨_, by rw [houtput hbundled, hdir, Option.map_some]⟩
  · intro o ho o' ho' p p' hp hp'
    obtain ⟨path, hpath, hrel, houtput⟩ := processAll_outcome (houtcomes ▸ ho)
    obtain ⟨path', hpath', hrel', houtput'⟩ := processAll_outcome (houtcomes ▸ ho')
    obtain ⟨names, hs⟩ := hfiles.sourceAt hfs hpath
    obtain ⟨names', hs'⟩ := hfiles.sourceAt hfs hpath'
    rw [houtput (isBundled_of_output? hp), hdir, Option.map_some, Option.some.injEq] at hp
    rw [houtput' (isBundled_of_output? hp'), hdir, Option.map_some, Option.some.injEq] at hp'
    rw [← hp, ← hp', hrel, hrel', relativeTo_sourceAt hroot hs, relativeTo_sourceAt hroot hs']
    exact outputFile_eq_iff hs.ne_nil hs.isName hs'.ne_nil hs'.isName
  · intro i o p ho hp
    rw [houtcomes] at ho
    obtain ⟨names, hleads⟩ := processAll_leads b root options.outputDir h files ho hp
    obtain ⟨j, hj, hlast⟩ := exists_lastWriter b root options.outputDir h files hleads
    obtain ⟨path, bundle, executable, hpath, hbundle, hnode⟩ := hlast.held
    obtain ⟨o', p', ho', hp', hresolve⟩ := id hleads
    rw [ho] at ho'
    cases ho'
    rw [hp] at hp'
    cases hp'
    rw [houtcomes, hhost]
    exact ⟨j, path, bundle, names, hj, hpath, hbundle, hleads, hlast.leads, hlast.last,
      FileSystem.readBytes_eq_ok_iff.mpr ⟨names, executable, hresolve, hnode⟩⟩

/-- Source files whose outputs meet: two that differ in their extensions, and one in a directory
that has the name of an output. -/
def meetingEntries : List Entry :=
  [.directory "a.md" [.file "b.py" "y = 2\n".toUTF8 false], .file "a.py" "x = 1\n".toUTF8 false,
    .file "a.pyi" "x: int\n".toUTF8 false]

def meetingHost : Host where
  files := ⟨[.directory "src" meetingEntries]⟩

theorem keptFiles_meeting : ∃ rules, IgnoreRuleSet.ofPatterns [] = .ok rules ∧
    decide (keptFilesOfAll rules [] meetingEntries = [["a.md", "b.py"], ["a.py"], ["a.pyi"]]) =
      true :=
  exists_ok_of_any (by decide +kernel)

def sharingOptions : BatchOptions where
  selection := ["a.py", "a.pyi"]
  outputDir := some ⟨"out"⟩

/-- The batch over the two files that differ in their extensions. -/
def sharingRun : List FileOutcome × Host :=
  processAll {} ⟨"src"⟩ (some ⟨"out"⟩) meetingHost [⟨"src/a.py"⟩, ⟨"src/a.pyi"⟩]

theorem runBatch_sharing :
    runBatch {} meetingHost ⟨"src"⟩ sharingOptions = .ok (sharingRun.1, sharingRun.2) := by
  obtain ⟨rules, hrules, hkept⟩ := keptFiles_meeting
  have hfiles : BatchFiles {} meetingHost ⟨"src"⟩ sharingOptions
      [⟨"src/a.py"⟩, ⟨"src/a.pyi"⟩] :=
    batchFiles_of_sorted (by decide) rfl hrules (of_decide_eq_true hkept) (by decide +kernel)
      (by decide +kernel)
  exact runBatch_eq_ok_iff.mpr ⟨_, hfiles, rfl⟩

theorem runBatch_outputs_sharing : meetingHost.files.isWellFormed = true ∧
    runBatch {} meetingHost ⟨"src"⟩ sharingOptions = .ok (sharingRun.1, sharingRun.2) ∧
    ∀ o ∈ sharingRun.1, ∀ o' ∈ sharingRun.1, ∀ p p', o.output? = some p → o'.output? = some p' →
      (p = p' ↔ SameButExtension o.path o'.path) := by
  have hwell : meetingHost.files.isWellFormed = true := by decide +kernel
  exact ⟨hwell, runBatch_sharing, (runBatch_outputs hwell rfl runBatch_sharing).2.1⟩

/-- Two files of a batch have one output, and the first of their bundles is lost. -/
theorem outputs_shared :
    runBatch {} meetingHost ⟨"src"⟩ sharingOptions = .ok (sharingRun.1, sharingRun.2) ∧
      sharingRun.1.map (fun o => (o.path, o.isBundled, o.output?)) =
        [(⟨"a.py"⟩, true, some ⟨"out/a.md"⟩), (⟨"a.pyi"⟩, true, some ⟨"out/a.md"⟩)] ∧
      ∃ bundle, Bundler.bundle {} meetingHost ⟨"src/a.py"⟩ = .ok bundle ∧
        sharingRun.2.files.readBytes ⟨"/out/a.md"⟩ ≠ .ok bundle.text.toUTF8 := by
  have hcheck : (Bundler.bundle {} meetingHost ⟨"src/a.py"⟩).toOption.any (fun bundle =>
      decide ((sharingRun.2.files.readBytes ⟨"/out/a.md"⟩).toOption ≠ some bundle.text.toUTF8)) =
        true := by
    decide +kernel
  obtain ⟨bundle, hbundle, hlost⟩ := exists_ok_of_any hcheck
  refine ⟨runBatch_sharing, by decide +kernel, bundle, hbundle, fun hread => ?_⟩
  rw [hread] at hlost
  exact absurd rfl (of_decide_eq_true hlost)

end Batch

end ImportContext
