import ImportContext.Proofs.Batch.Destinations
import ImportContext.Proofs.FileSystem.Growth

/-!
# Writing among outputs

An output goes on by names behind the output directory, and is written there with the directories
that it lacks. A file blocks these directories, and a directory blocks the output; no other output
does either as long as none is to stand below another one. The output of a file such as `..py` goes
up again behind its directories, so it is never written, but the directories are.

Results:
* `output_aims`, `output_parent`: where an output and its parent lead.
* `writeOutput_free`, `writeOutput_up`: what comes of an output whose directories are not blocked.
* `writeOutput_grown`: an output fares among others as it would alone.
* `writeOutput_spares`: what an output leaves as it is.
-/

namespace ImportContext

open ImportContext.Path FileSystem

/-! ## Where outputs are written -/

section Output

variable {h : Host} {format : BundleFormat} {dir base p : Path} {n : String}
  {before place ns new t : List String} {m : String}

/-- The names of the output of a file below the output directory. The output of a file such as
`..py` has no name, and cannot be written; the last name here is then one that no file gets. -/
def outputNames (format : BundleFormat) (rel : Path) : List String :=
  rel.names.dropLast ++ [stem (rel.names.getLast?.getD "") ++ "." ++ format.extension]

theorem outputNames_ofPieces (hns : ∀ s ∈ ns ++ [n], IsName s) :
    outputNames format (ofPieces (ns ++ [n])) = ns ++ [stem n ++ "." ++ format.extension] := by
  rw [outputNames, names_ofPieces hns, List.dropLast_concat, List.getLast?_concat, Option.getD_some]

/-- A path that a text is written to goes to the last of some names, or from the directory before
it up again. -/
inductive Aims (fs : FileSystem) (p : Path) (before place t : List String) (m : String) : Prop
  | name : OpenWay fs p before place (t ++ [m]) → Aims fs p before place t m
  | up : Returns fs p before place t → Aims fs p before place t m

theorem Aims.grown {fs fs' : FileSystem} {outputs : List (List String)}
    (hp : Aims fs p before place t m) (hgrown : Grown place outputs fs fs') :
    Aims fs' p before place t m := by
  cases hp with
  | name hp => exact .name (hp.grown hgrown)
  | up hp => exact .up (hp.grown hgrown)

theorem isAbsolute_outputFile (format : BundleFormat) (hdir : dir.text ≠ "")
    (hns : ∀ s ∈ ns ++ [n], IsName s) :
    (outputFile format dir (ofPieces (ns ++ [n]))).isAbsolute = dir.isAbsolute := by
  have hpieces := pieces_outputFile format dir hns
  have htext := text_ne_empty_of_pieces hpieces (isIdle_replaceExtension format (hns n (by simp)))
  exact isAbsolute_of_front hdir htext (by rw [hpieces, List.append_assoc])

/-- What stands in front of the last piece of an output goes on from the output directory by the
names of its directories. -/
theorem dropIdle_front_append (hsteps : dir.steps = base.steps ++ new)
    (hns : ∀ s ∈ ns ++ [n], IsName s) :
    dropIdle (dir.front ++ ns) = base.steps ++ (new ++ ns) := by
  rw [dropIdle_append, dropIdle_front, hsteps, List.append_assoc,
    dropIdle_of_isName fun s hs => hns s (List.mem_append_left _ hs)]

section Way

variable {fs : FileSystem} (hcwd : h.cwd.isAbsolute = true) (hdir : dir.text ≠ "")
  (hbase : base.text ≠ "") (hkind : base.isAbsolute = dir.isAbsolute)
  (hsteps : dir.steps = base.steps ++ new) (hnew : ∀ s ∈ new, IsName s)
  (hns : ∀ s ∈ ns ++ [n], IsName s) (hleads : Leads fs place maxLinks [] (h.path base).steps)

include hcwd hdir hbase hkind hsteps hnew hns hleads

/-- An output goes on behind the output directory by its names, or up again. -/
theorem output_aims (format : BundleFormat)
    (hclear : fs.Clear place (new ++ ns ++ [stem n ++ "." ++ format.extension])) :
    Aims fs (h.path (outputFile format dir (ofPieces (ns ++ [n])))) (h.path base).steps place
      (new ++ ns) (stem n ++ "." ++ format.extension) := by
  have hpieces := pieces_outputFile format dir hns
  have hidle := isIdle_replaceExtension format (hns n (by simp))
  have htext := text_ne_empty_of_pieces hpieces hidle
  have habsolute := (isAbsolute_outputFile format hdir hns).trans hkind.symm
  have hnames := List.forall_mem_append.mpr ⟨hnew, (List.forall_mem_append.mp hns).1⟩
  have hfront := dropIdle_front_append hsteps hns
  rcases replaceExtension_cases n format.extension with ⟨-, heq⟩ | ⟨-, heq⟩
  · rw [heq] at hpieces hidle
    refine .name ⟨way_path hcwd htext hbase habsolute ?_ ?_ ?_, hleads, hclear⟩
    · rw [steps_of_pieces hpieces hidle, hfront, List.append_assoc]
    · have hname := isName_output format (hns n (by simp))
      exact List.forall_mem_append.mpr ⟨hnames, List.forall_mem_singleton.mpr hname⟩
    · intro ys m heq
      rw [hpieces, ← (List.append_inj' heq rfl).2]
      exact ⟨_, rfl⟩
  · rw [heq] at hpieces
    refine .up ⟨⟨_, by rw [pieces_path h htext, hpieces, ← List.append_assoc], ?_⟩, hnames, hleads,
      hclear.of_prefix (List.prefix_append _ _)⟩
    rw [steps, pieces_path h hbase, habsolute, dropIdle_append _ (dir.front ++ ns), hfront,
      dropIdle_append _ base.pieces, ← steps, List.append_assoc]

/-- The parent of an output goes on behind the output directory by the names before the last. -/
theorem output_parent (format : BundleFormat) (hclear : fs.Clear place (new ++ ns)) :
    ∃ r, (outputFile format dir (ofPieces (ns ++ [n]))).parent? = some r ∧
      OpenWay fs (h.path r) (h.path base).steps place (new ++ ns) := by
  have hidle := isIdle_replaceExtension format (hns n (by simp))
  obtain ⟨r, hr⟩ := Path.exists_parent hidle (pieces_outputFile format dir hns)
  have houtput := isAbsolute_outputFile format hdir hns
  have habsolute := (hr.isAbsolute_eq.trans houtput).trans hkind.symm
  have hnames := List.forall_mem_append.mpr ⟨hnew, (List.forall_mem_append.mp hns).1⟩
  have hfront := dropIdle_front_append hsteps hns
  refine ⟨r, hr.parent?_eq, way_path hcwd ?_ hbase habsolute (hr.steps_eq.trans hfront) hnames ?_,
    hleads, hclear⟩
  · intro hempty
    exact front_ne_nil hdir (List.append_eq_nil_iff.mp (hr.eq_nil hempty)).1
  · intro ys m heq
    refine hr.ends (base.steps ++ ys) m ?_
    rw [hr.steps_eq, hfront, heq, List.append_assoc]

end Way

end Output

/-! ## One output -/

section Write

variable {h s : Host} {p r : Path} {text : String} {m : String}
  {before place t u v : List String} {outputs : List (List String)}

theorem writeOutput_blocked {bytes : ByteArray} {executable : Bool} (hr : p.parent? = some r)
    (hparent : OpenWay s.files (s.path r) before place (u ++ v))
    (hfile : s.files.node? (place ++ u) = some (.file bytes executable)) :
    writeOutput s p text =
      (.error (.directory r (if v = [] then .alreadyExists else .notDirectory)), s) := by
  rw [writeOutput, hr]
  simp only [Host.createDirectories, hparent.createDirectories_error hfile]

/-- The directories that an output needs. -/
theorem exists_made (text : String) (hr : p.parent? = some r)
    (hparent : OpenWay s.files (s.path r) before place t)
    (hfree : ∀ u, u <+: t → ∀ k, s.files.node? (place ++ u) = some k → k = .directory) :
    ∃ files, MadeDirectories place t s.files files ∧ s.files.Extends files ∧
      writeOutput s p text = writeFile { s with files } p text := by
  obtain ⟨files, hmake, hmade⟩ := hparent.createDirectories_ok hfree
  refine ⟨files, hmade, hmade.extends hfree, ?_⟩
  rw [writeOutput, hr]
  simp only [Host.createDirectories, hmake]

/-- What decides about an output with a name, and what it adds. -/
theorem writeOutput_free (text : String) (hr : p.parent? = some r)
    (hp : OpenWay s.files (s.path p) before place (t ++ [m]))
    (hparent : OpenWay s.files (s.path r) before place t)
    (hfree : ∀ u, u <+: t → ∀ k, s.files.node? (place ++ u) = some k → k = .directory) :
    ∃ files, MadeDirectories place t s.files files ∧ s.files.Extends files ∧
      (s.files.node? (place ++ t ++ [m]) = some .directory ∧
        writeOutput s p text = (.error (.file p .isDirectory), { s with files }) ∨
      s.files.node? (place ++ t ++ [m]) ≠ some .directory ∧
        ∃ files', WritesAt (place ++ (t ++ [m])) text.toUTF8 files files' ∧
          writeOutput s p text = (.ok (), { s with files := files' })) := by
  obtain ⟨files, hmade, hkept, hwrite⟩ := exists_made text hr hparent hfree
  refine ⟨files, hmade, hkept, ?_⟩
  have hend := hmade.node?_concat m
  have hway : OpenWay files (({ s with files } : Host).path p) before place (t ++ [m]) :=
    hp.mono hkept (hmade.clear_concat hp.clear)
  rw [hwrite, writeFile, Host.writeText]
  by_cases hnode : s.files.node? (place ++ t ++ [m]) = some .directory
  · refine .inl ⟨hnode, ?_⟩
    rw [hway.writeFile_error _ (hend.trans hnode)]
    rfl
  · refine .inr ⟨hnode, ?_⟩
    obtain ⟨files', hwrite, hwrites⟩ := hway.writeFile_ok text.toUTF8
      (hmade.made t List.prefix_rfl) (by rwa [hend])
    rw [List.append_assoc] at hwrites
    refine ⟨files', hwrites, ?_⟩
    rw [hwrite]
    rfl

/-- An output that goes up again adds nothing but its directories. -/
theorem writeOutput_up (text : String) (hr : p.parent? = some r)
    (hp : Returns s.files (s.path p) before place t)
    (hparent : OpenWay s.files (s.path r) before place t)
    (hfree : ∀ u, u <+: t → ∀ k, s.files.node? (place ++ u) = some k → k = .directory) :
    ∃ files, MadeDirectories place t s.files files ∧ s.files.Extends files ∧
      writeOutput s p text = (.error (.file p .isDirectory), { s with files }) := by
  obtain ⟨files, hmade, hkept, hwrite⟩ := exists_made text hr hparent hfree
  refine ⟨files, hmade, hkept, ?_⟩
  have hway : Returns files (({ s with files } : Host).path p) before place t :=
    hp.mono hkept hmade.clear
  rw [hwrite, writeFile, Host.writeText, hway.writeFile_error _ (hmade.made t List.prefix_rfl)]
  rfl

/-- An output fares among others as it would alone, and adds no more than it may. -/
theorem writeOutput_grown (text : String) (hr : p.parent? = some r) (hcwd : s.cwd = h.cwd)
    (hp : Aims h.files (h.path p) before place t m)
    (hparent : OpenWay h.files (h.path r) before place t)
    (hapart : Apart outputs) (ht : t ++ [m] ∈ outputs)
    (hgrown : Grown place outputs h.files s.files) :
    (writeOutput s p text).1 = (writeOutput h p text).1 ∧
      Grown place outputs h.files (writeOutput s p text).2.files := by
  have hparent' : OpenWay s.files (s.path r) before place t := by
    rw [path_eq_of_cwd hcwd]
    exact hparent.grown hgrown
  rcases file_or_free hparent.clear with ⟨u, ⟨v, rfl⟩, bytes, executable, hblock⟩ | hfree
  · -- a file that stood there at first blocks the directories
    obtain ⟨bytes', executable', hblock'⟩ := hgrown.kept.file hblock
    rw [writeOutput_blocked hr hparent hblock, writeOutput_blocked hr hparent' hblock']
    exact ⟨rfl, hgrown⟩
  have hfree' := hgrown.free hapart ht hparent'.clear hfree
  cases hp with
  | up hp =>
    have hp' : Returns s.files (s.path p) before place t := by
      rw [path_eq_of_cwd hcwd]
      exact hp.grown hgrown
    obtain ⟨files, -, -, hwrite⟩ := writeOutput_up text hr hp hparent hfree
    obtain ⟨files', hmade', hkept', hwrite'⟩ := writeOutput_up text hr hp' hparent' hfree'
    rw [hwrite, hwrite']
    exact ⟨rfl, hgrown.made hmade' hkept' ht⟩
  | name hp =>
    have hp' : OpenWay s.files (s.path p) before place (t ++ [m]) := by
      rw [path_eq_of_cwd hcwd]
      exact hp.grown hgrown
    obtain ⟨files, hmade, hkept, hcases⟩ := writeOutput_free text hr hp hparent hfree
    obtain ⟨files', hmade', hkept', hcases'⟩ := writeOutput_free text hr hp' hparent' hfree'
    have hgrown' := hgrown.made hmade' hkept' ht
    have hdirectory := hgrown.directory_iff hapart ht
    rw [← List.append_assoc] at hdirectory
    rcases hcases with ⟨hnode, hwrite⟩ | ⟨hnode, _, -, hwrite⟩
    · rcases hcases' with ⟨-, hwrite'⟩ | ⟨hnode', -⟩
      · rw [hwrite, hwrite']
        exact ⟨rfl, hgrown'⟩
      · exact absurd (hdirectory.mpr hnode) hnode'
    · rcases hcases' with ⟨hnode', -⟩ | ⟨-, files'', hwrites, hwrite'⟩
      · exact absurd (hdirectory.mp hnode') hnode
      · rw [hwrite, hwrite']
        exact ⟨rfl, hgrown'.wrote hwrites ht⟩

/-- An output changes nothing aside of a place that it is below, where the directories that it lacks
are below that place too. -/
theorem writeOutput_spares {aside : List String} (text : String) (hr : p.parent? = some r)
    (hp : Aims s.files (s.path p) before place t m)
    (hparent : OpenWay s.files (s.path r) before place t)
    (hlacks : ∀ u, u <+: t → s.files.node? (place ++ u) = none → aside <+: place ++ u)
    (hend : aside <+: place ++ (t ++ [m])) :
    Spares aside s.files (writeOutput s p text).2.files := by
  rcases file_or_free hparent.clear with ⟨u, ⟨v, rfl⟩, bytes, executable, hblock⟩ | hfree
  · rw [writeOutput_blocked hr hparent hblock]
    exact .refl aside s.files
  cases hp with
  | up hp =>
    obtain ⟨files, hmade, -, hwrite⟩ := writeOutput_up text hr hp hparent hfree
    rw [hwrite]
    exact hmade.spares aside hlacks
  | name hp =>
    obtain ⟨files, hmade, -, hcases⟩ := writeOutput_free text hr hp hparent hfree
    have hdirectories := hmade.spares aside hlacks
    rcases hcases with ⟨-, hwrite⟩ | ⟨-, files', hwrites, hwrite⟩
    · rw [hwrite]
      exact hdirectories
    · rw [hwrite]
      exact hdirectories.trans (hwrites.spares aside hend)

end Write

end ImportContext
