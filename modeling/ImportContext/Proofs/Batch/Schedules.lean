import ImportContext.Proofs.Batch.Writing
import ImportContext.Proofs.Bundle.Agreement
import Mathlib.Data.List.Perm.Subperm

/-!
# Batches in another order

The files of a batch may be bundled in any order, and the outcomes are listed in the order of the
paths. A file that is bundled later sees the outputs of the earlier ones, so its outcome may be
another one: an output may be in the way of another output, and a bundle may show one. Where
neither happens, each outcome is the one that its file has alone, in every order.

Results:
* `processFile_spares`, `outcome_processFile`: a step among outputs that do not disturb it.
* `processAll_spares`: a run of steps changes nothing aside of the output directory.
* `OutputsAside.undisturbed`: bundles are not disturbed by outputs that are aside of their roots.
* `runBatch_any_order`: where no file is disturbed, the outcomes are the same in every order.
* `runBatch_order_aside`: the same, asking of outputs no more than where they go.
* `outcomes_by_order`: two files whose outcomes depend on their order.
-/

namespace ImportContext

open ImportContext.Path FileSystem

/-! ## Orders -/

/-- The outputs of a batch disturb neither each other nor the bundles. -/
structure Undisturbed (b : Bundler) (h : Host) (root dir : Path) (files : List Path) : Prop where
  cwd : h.cwd.isAbsolute = true
  named : dir.text ≠ ""
  /-- The output directory, or one above it, exists, and no link stands on the way from there to an
  output. -/
  place : ∃ (base : Path) (place new : List String), base.isAbsolute = dir.isAbsolute ∧
    dir.steps = base.steps ++ new ∧ (∀ s ∈ new, IsName s) ∧
    h.files.resolve true (h.path base) = .ok place ∧ h.files.node? place = some .directory ∧
    ∀ path ∈ files,
      h.files.Clear place (new ++ outputNames b.options.format (relativeTo root path))
  /-- No output is to stand below another one. -/
  apart : Apart (files.map fun path => outputNames b.options.format (relativeTo root path))
  /-- No bundle shows what other files have written before. -/
  unread : ∀ done path, (done ++ [path]).Subperm files →
    b.bundle (processAll b root (some dir) h done).2 path = b.bundle h path

section Order

variable {b : Bundler} {h s : Host} {root dir path : Path} {options : BatchOptions}
  {files order : List Path}

/-- Where outputs go. The path `base` leads to the directory at `place`; the output directory is
there, or below it by the names `new`. No link stands on the way to an output, and none is to stand
below another one. -/
structure OutputsPlaced (b : Bundler) (h : Host) (root dir : Path) (files : List Path) (base : Path)
    (place new : List String) : Prop where
  cwd : h.cwd.isAbsolute = true
  named : dir.text ≠ ""
  kind : base.isAbsolute = dir.isAbsolute
  steps_eq : dir.steps = base.steps ++ new
  isName : ∀ s ∈ new, IsName s
  resolve_eq : h.files.resolve true (h.path base) = .ok place
  directory : h.files.node? place = some .directory
  clear : ∀ path ∈ files,
    h.files.Clear place (new ++ outputNames b.options.format (relativeTo root path))
  apart : Apart (files.map fun path => outputNames b.options.format (relativeTo root path))

theorem Undisturbed.exists_placed (hund : Undisturbed b h root dir files) :
    ∃ base place new, OutputsPlaced b h root dir files base place new := by
  obtain ⟨base, place, new, hkind, hsteps, hnew, hplace, hdirectory, hclear⟩ := hund.place
  exact ⟨base, place, new, hund.cwd, hund.named, hkind, hsteps, hnew, hplace, hdirectory, hclear,
    hund.apart⟩

section Placed

variable {base : Path} {place new names : List String}

/-- The names of all outputs, seen from the directory that they are placed in. -/
def placedNames (b : Bundler) (root : Path) (new : List String) (files : List Path) :
    List (List String) :=
  files.map fun path => new ++ outputNames b.options.format (relativeTo root path)

theorem OutputsPlaced.apart_placed (hp : OutputsPlaced b h root dir files base place new) :
    Apart (placedNames b root new files) := by
  have hapart := hp.apart.map_append new
  rwa [List.map_map] at hapart

/-- Where an output and its parent lead. -/
theorem OutputsPlaced.exists_way (hp : OutputsPlaced b h root dir files base place new)
    (hroot : root.text ≠ "") (hpath : path ∈ files) (hs : SourceAt root path names) :
    ∃ t m r, new ++ outputNames b.options.format (relativeTo root path) = t ++ [m] ∧
      t ++ [m] ∈ placedNames b root new files ∧
      (outputFile b.options.format dir (relativeTo root path)).parent? = some r ∧
      Aims h.files (h.path (outputFile b.options.format dir (relativeTo root path)))
        (h.path base).steps place t m ∧
      OpenWay h.files (h.path r) (h.path base).steps place t := by
  have hplace := hp.resolve_eq
  have hbase : base.text ≠ "" := by
    intro hempty
    rw [Host.path, absolute, if_pos (by simpa using hempty), resolve,
      if_pos (by simpa using hempty)] at hplace
    cases hplace
  have hleads := leads_of_resolve hp.directory hplace
  have hclear := hp.clear path hpath
  have hmem : new ++ outputNames b.options.format (relativeTo root path) ∈
      placedNames b root new files := List.mem_map.mpr ⟨path, hpath, rfl⟩
  obtain ⟨hne, hns, rfl⟩ := hs
  rw [relativeTo_sourceAt hroot ⟨hne, hns, rfl⟩] at hclear hmem ⊢
  cases names using List.reverseRecOn with
  | nil => exact absurd rfl hne
  | append_singleton ns n =>
    rw [outputNames_ofPieces hns, ← List.append_assoc] at hclear hmem ⊢
    have haims := output_aims hp.cwd hp.named hbase hp.kind hp.steps_eq hp.isName hns hleads
      b.options.format hclear
    obtain ⟨r, hr, hparent⟩ := output_parent hp.cwd hp.named hbase hp.kind hp.steps_eq hp.isName
      hns hleads b.options.format (hclear.of_prefix (List.prefix_append _ _))
    exact ⟨new ++ ns, _, r, rfl, hmem, hr, haims, hparent⟩

end Placed

/-- A step changes the host as its output does, if it has one. -/
theorem host_processFile (b : Bundler) (root dir : Path) (s : Host) (path : Path) :
    (processFile b root (some dir) s path).2 = s ∨ ∃ text, (processFile b root (some dir) s path).2 =
      (writeOutput s (outputFile b.options.format dir (relativeTo root path)) text).2 := by
  rw [processFile]
  cases b.bundle s path with
  | error e => exact .inl rfl
  | ok bundle =>
    refine .inr ⟨bundle.text, ?_⟩
    dsimp only
    cases writeOutput s (outputFile b.options.format dir (relativeTo root path)) bundle.text with
    | mk result s' => cases result <;> rfl

/-- A step among outputs adds no more than its output may, and nothing aside of a place that the
output and the directories that it lacks are below. -/
theorem processFile_spares {r : Path} {m : String} {before place t aside : List String}
    {outputs : List (List String)} (hcwd : s.cwd = h.cwd)
    (hr : (outputFile b.options.format dir (relativeTo root path)).parent? = some r)
    (hp : Aims h.files (h.path (outputFile b.options.format dir (relativeTo root path)))
      before place t m)
    (hparent : OpenWay h.files (h.path r) before place t) (hapart : Apart outputs)
    (ht : t ++ [m] ∈ outputs)
    (hlacks : ∀ u, u <+: t → h.files.node? (place ++ u) = none → aside <+: place ++ u)
    (hend : aside <+: place ++ (t ++ [m])) (hgrown : Grown place outputs h.files s.files) :
    Grown place outputs h.files (processFile b root (some dir) s path).2.files ∧
      Spares aside s.files (processFile b root (some dir) s path).2.files := by
  rcases host_processFile b root dir s path with hsame | ⟨text, hwrite⟩
  · rw [hsame]
    exact ⟨hgrown, .refl aside s.files⟩
  · rw [hwrite]
    refine ⟨(writeOutput_grown text hr hcwd hp hparent hapart ht hgrown).2, ?_⟩
    rw [← path_eq_of_cwd hcwd] at hp hparent
    refine writeOutput_spares text hr (hp.grown hgrown) (hparent.grown hgrown)
      (fun u hu hnone => hlacks u hu ?_) hend
    -- what is there at first is there now
    cases hnode : h.files.node? (place ++ u) with
    | none => rfl
    | some k =>
      obtain ⟨k', hk', -⟩ := hgrown.kept _ k hnode
      rw [hnone] at hk'
      cases hk'

section Aside

variable {base : Path} {place new : List String} (hroot : root.text ≠ "")
  (hsources : ∀ path ∈ files, ∃ names, SourceAt root path names)
include hroot hsources

/-- A batch adds outputs only, all of them in the output directory or in what leads there from a
directory that exists. -/
theorem processAll_spares (hp : OutputsPlaced b h root dir files base place new)
    (horder : order ⊆ files) :
    Grown place (placedNames b root new files) h.files
        (processAll b root (some dir) h order).2.files ∧
      Spares (place ++ new.take 1) h.files (processAll b root (some dir) h order).2.files := by
  induction order using List.reverseRecOn with
  | nil => exact ⟨.refl _ _ _, .refl _ _⟩
  | append_singleton order path ih =>
    obtain ⟨hrest, hlast⟩ := List.append_subset.mp horder
    obtain ⟨hgrown, hspares⟩ := ih hrest
    have hpath : path ∈ files := hlast List.mem_cons_self
    obtain ⟨names, hs⟩ := hsources path hpath
    obtain ⟨t, m, r, hnames, ht, hr, haims, hparent⟩ := hp.exists_way hroot hpath hs
    have hfirst : new.take 1 <+: t ++ [m] := by
      rw [← hnames]
      exact (List.take_prefix 1 new).trans (List.prefix_append new _)
    have hlacks : ∀ u, u <+: t → h.files.node? (place ++ u) = none →
        place ++ new.take 1 <+: place ++ u := by
      intro u hu hnone
      refine (List.prefix_append_right_inj place).mpr ?_
      refine List.prefix_of_prefix_length_le hfirst (hu.trans (List.prefix_append t [m])) ?_
      -- a prefix that is lacking is not the empty one
      cases u with
      | nil =>
        rw [List.append_nil, hp.directory] at hnone
        cases hnone
      | cons n u =>
        rw [List.length_take, List.length_cons]
        omega
    obtain ⟨hgrown', hstep⟩ := processFile_spares (cwd_processAll b root (some dir) h order) hr
      haims hparent hp.apart_placed ht hlacks ((List.prefix_append_right_inj place).mpr hfirst)
      hgrown
    rw [processAll_concat]
    exact ⟨hgrown', hspares.trans hstep⟩

/-- Outputs go where no bundle looks: the roots of all bundles, and the template, are aside of
them. -/
structure OutputsAside (b : Bundler) (h : Host) (root dir : Path) (files : List Path) (base : Path)
    (place new : List String) : Prop extends OutputsPlaced b h root dir files base place new where
  plain : b.IsPlain
  roots : ∀ path ∈ files, ∀ r ∈ b.rootsOf h path, h.Aside (place ++ new.take 1) r
  template : ∀ name, b.options.template = some name → name ≠ "markdown" → name ≠ "plain" →
    ∃ (above : Path) (names : List String), h.Aside (place ++ new.take 1) above ∧
      (∀ n ∈ names, IsName n) ∧ ⟨name⟩ = names.foldl child above

/-- Outputs that go where no bundle looks disturb none. -/
theorem OutputsAside.undisturbed (ha : OutputsAside b h root dir files base place new) :
    Undisturbed b h root dir files := by
  refine ⟨ha.cwd, ha.named, ⟨base, place, new, ha.kind, ha.steps_eq, ha.isName, ha.resolve_eq,
    ha.directory, ha.clear⟩, ha.apart, fun done path hpart => ?_⟩
  obtain ⟨hdone, hpath⟩ := List.append_subset.mp hpart.subset
  obtain ⟨hgrown, hspares⟩ := processAll_spares hroot hsources ha.toOutputsPlaced hdone
  have hagree : ∀ roots : List Path, (∀ r ∈ roots, h.Aside (place ++ new.take 1) r) →
      Host.Agree roots h (processAll b root (some dir) h done).2 := fun _ =>
    Host.agree_of_spares ha.cwd (cwd_processAll b root (some dir) h done) hgrown.kept hspares
  refine Bundler.bundle_congr ha.plain (hagree _ (ha.roots path (hpath List.mem_cons_self))) ?_
  intro name hname hmarkdown hplain
  obtain ⟨above, names, habove, hnames, hbelow⟩ := ha.template name hname hmarkdown hplain
  rw [hbelow]
  exact (hagree [above] (by simpa using habove)).lookup above List.mem_cons_self names hnames

end Aside

/-! ## Outcomes in another order -/

/-- A step among outputs has the outcome that it has without them, if they do not disturb it. -/
theorem outcome_processFile {r : Path} {m : String} {before place t : List String}
    {outputs : List (List String)} (hcwd : s.cwd = h.cwd)
    (hr : (outputFile b.options.format dir (relativeTo root path)).parent? = some r)
    (hp : Aims h.files (h.path (outputFile b.options.format dir (relativeTo root path)))
      before place t m)
    (hparent : OpenWay h.files (h.path r) before place t) (hapart : Apart outputs)
    (ht : t ++ [m] ∈ outputs) (hbundle : b.bundle s path = b.bundle h path)
    (hgrown : Grown place outputs h.files s.files) :
    (processFile b root (some dir) s path).1 = (processFile b root (some dir) h path).1 := by
  rw [processFile, processFile, hbundle]
  cases b.bundle h path with
  | error e => rfl
  | ok bundle =>
    have hsame := (writeOutput_grown bundle.text hr hcwd hp hparent hapart ht hgrown).1
    dsimp only
    cases hs : writeOutput s (outputFile b.options.format dir (relativeTo root path))
        bundle.text with
    | mk result s' =>
      cases hh : writeOutput h (outputFile b.options.format dir (relativeTo root path))
          bundle.text with
      | mk result' h' =>
        rw [hs, hh] at hsame
        obtain rfl : result = result' := hsame
        cases result with
        | ok _ => rfl
        | error e => rfl

/-- In every order each outcome is the one that its file has alone. -/
theorem outcomes_processAll (hroot : root.text ≠ "")
    (hsources : ∀ path ∈ files, ∃ names, SourceAt root path names)
    (hund : Undisturbed b h root dir files) (horder : order.Subperm files) :
    (processAll b root (some dir) h order).1 =
      order.map fun path => (processFile b root (some dir) h path).1 := by
  obtain ⟨base, place, new, hp⟩ := hund.exists_placed
  induction order using List.reverseRecOn with
  | nil => rfl
  | append_singleton order path ih =>
    have hrest : order.Subperm files :=
      (List.sublist_append_left order [path]).subperm.trans horder
    have hpath : path ∈ files := horder.subset (by simp)
    -- nothing but outputs was added before
    obtain ⟨hgrown, -⟩ := processAll_spares hroot hsources hp hrest.subset
    obtain ⟨names, hs⟩ := hsources path hpath
    obtain ⟨t, m, r, hnames, ht, hr, haims, hparent⟩ := hp.exists_way hroot hpath hs
    have hsame := outcome_processFile (cwd_processAll b root (some dir) h order) hr haims hparent
      hp.apart_placed ht (hund.unread order path horder) hgrown
    rw [processAll_concat]
    simp only
    rw [ih hrest, hsame, List.map_append, List.map_singleton]

/-- The outcomes of files that were bundled in some order, listed in the order of other files. -/
def listedAs (files order : List Path) (outcomes : List FileOutcome) : List FileOutcome :=
  files.filterMap ((order.zip outcomes).lookup ·)

theorem lookup_zip_map (f : Path → FileOutcome) (hpath : path ∈ order) :
    (order.zip (order.map f)).lookup path = some (f path) := by
  induction order with
  | nil => cases hpath
  | cons first rest ih =>
    rw [List.map_cons, List.zip_cons_cons, List.lookup_cons]
    split
    · next heq => rw [beq_iff_eq.mp heq]
    · next hne =>
      refine ih ((List.mem_cons.mp hpath).resolve_left ?_)
      rintro rfl
      simp at hne

theorem listedAs_map (f : Path → FileOutcome) (hfiles : files ⊆ order) :
    listedAs files order (order.map f) = files.map f := by
  calc listedAs files order (order.map f)
    _ = files.filterMap (fun path => some (f path)) :=
      List.filterMap_congr fun path hpath => lookup_zip_map f (hfiles hpath)
    _ = files.map f := congrFun (List.filterMap_eq_map (f := f)) files

/-- Without outputs nothing changes. -/
theorem processAll_none (b : Bundler) (root : Path) (h : Host) (order : List Path) :
    processAll b root none h order =
      (order.map fun path => (processFile b root none h path).1, h) := by
  have hhost : ∀ path, (processFile b root none h path).2 = h := by
    intro path
    rw [processFile]
    cases b.bundle h path with
    | error e => rfl
    | ok bundle => rfl
  induction order with
  | nil => rfl
  | cons path rest ih =>
    rw [processAll]
    simp only [hhost, ih, List.map_cons]

/-- A batch has the outcomes of any order in which they are those that the files have alone. -/
theorem exists_runBatch_listedAs (hfiles : BatchFiles b h root options files)
    (horder : order.Perm files) (halone : ∀ order' : List Path, order'.Perm files →
      (processAll b root options.outputDir h order').1 =
        order'.map fun path => (processFile b root options.outputDir h path).1) :
    ∃ h', runBatch b h root options =
      .ok (listedAs files order (processAll b root options.outputDir h order).1, h') := by
  refine ⟨(processAll b root options.outputDir h files).2,
    runBatch_eq_ok_iff.mpr ⟨files, hfiles, Prod.ext ?_ rfl⟩⟩
  rw [halone files (.refl files), halone order horder]
  exact (listedAs_map _ horder.symm.subset).symm

/-- Where no file is disturbed by outputs, a batch has the same outcomes in every order of its
files. -/
theorem runBatch_any_order (hfs : h.files.isWellFormed = true)
    (hfiles : BatchFiles b h root options files)
    (hund : ∀ dir, options.outputDir = some dir → Undisturbed b h root dir files)
    (horder : order.Perm files) : files.Nodup ∧ ∃ h', runBatch b h root options =
      .ok (listedAs files order (processAll b root options.outputDir h order).1, h') := by
  refine ⟨hfiles.nodup hfs, exists_runBatch_listedAs hfiles horder fun order' hperm => ?_⟩
  cases hdir : options.outputDir with
  | none => rw [processAll_none]
  | some dir =>
    have hroot := text_ne_empty_of_isDirectory hfiles.isDirectory
    exact outcomes_processAll hroot (fun _ => hfiles.sourceAt hfs) (hund dir hdir) hperm.subperm

/-- Where outputs go is enough: if no bundle looks there, a batch has the same outcomes in every
order of its files. -/
theorem runBatch_order_aside {base : Path} {place new : List String}
    (hfs : h.files.isWellFormed = true) (hfiles : BatchFiles b h root options files)
    (hdir : options.outputDir = some dir)
    (haside : OutputsAside b h root dir files base place new) (horder : order.Perm files) :
    ∃ h', runBatch b h root options =
      .ok (listedAs files order (processAll b root (some dir) h order).1, h') := by
  have hroot := text_ne_empty_of_isDirectory hfiles.isDirectory
  have hsources : ∀ path ∈ files, ∃ names, SourceAt root path names := fun _ =>
    hfiles.sourceAt hfs
  rw [← hdir]
  refine exists_runBatch_listedAs hfiles horder fun order' hperm => ?_
  rw [hdir]
  exact outcomes_processAll hroot hsources (haside.undisturbed hroot hsources) hperm.subperm

/-- The files of which one is in a directory that has the name of the other one's output. -/
def blockingFiles : List Path :=
  [⟨"src/a.md/b.py"⟩, ⟨"src/a.py"⟩]

theorem batchFiles_blocking (b : Bundler) (hb : b.options.ignorePatterns = []) :
    BatchFiles b meetingHost ⟨"src"⟩ { outputDir := some ⟨"out"⟩ } blockingFiles := by
  obtain ⟨rules, hrules, hkept⟩ := keptFiles_meeting
  rw [← hb] at hrules
  exact batchFiles_of_sorted (by decide) rfl hrules (of_decide_eq_true hkept) (by decide +kernel)
    (by decide +kernel)

/-- Another extension keeps the outputs of the two files apart. -/
def plainBundler : Bundler where
  options := { format := .plain }

/-- The output directory is missing, so nothing in it can be in the way, and no bundle of the two
files looks there. -/
theorem outputsAside_plain : OutputsAside plainBundler meetingHost ⟨"src"⟩ ⟨"out"⟩ blockingFiles
    ⟨"."⟩ [] ["out"] := by
  have hsteps : (⟨"out"⟩ : Path).steps = (⟨"."⟩ : Path).steps ++ ["out"] := by decide +kernel
  have hplace : meetingHost.files.resolve true (meetingHost.path ⟨"."⟩) = .ok [] :=
    eq_ok_of_toOption (by decide +kernel)
  have hplaced : OutputsPlaced plainBundler meetingHost ⟨"src"⟩ ⟨"out"⟩ blockingFiles ⟨"."⟩ []
      ["out"] :=
    ⟨rfl, by decide, rfl, hsteps, by decide, hplace, rfl, fun _ _ => clear_of_missing rfl rfl _,
      by decide +kernel⟩
  have hplain : plainBundler.IsPlain :=
    ⟨rfl, ⟨by decide, by decide⟩, ⟨by decide, by decide⟩, ⟨by decide, by decide⟩⟩
  have hroots : ∀ path ∈ blockingFiles, ∀ r ∈ plainBundler.rootsOf meetingHost path,
      r = ⟨"/src/a.md"⟩ ∨ r = ⟨"/src"⟩ := by
    decide +kernel
  refine ⟨hplaced, hplain, fun path hpath r hr => ?_, fun name hname => nomatch hname⟩
  rcases hroots path hpath r hr with rfl | rfl
  · exact ⟨["src", "a.md"], _, _, eq_ok_of_toOption (by decide +kernel), rfl, rfl, by decide,
      by decide⟩
  · exact ⟨["src"], _, _, eq_ok_of_toOption (by decide +kernel), rfl, rfl, by decide, by decide⟩

theorem undisturbed_plain :
    Undisturbed plainBundler meetingHost ⟨"src"⟩ ⟨"out"⟩ blockingFiles := by
  refine outputsAside_plain.undisturbed (by decide) fun path hpath => ?_
  rcases List.mem_pair.mp hpath with rfl | rfl
  · exact ⟨["a.md", "b.py"], by decide, by decide +kernel, by decide +kernel⟩
  · exact ⟨["a.py"], by decide, by decide +kernel, by decide +kernel⟩

theorem runBatch_any_order_plain : meetingHost.files.isWellFormed = true ∧
    ∃ h', runBatch plainBundler meetingHost ⟨"src"⟩ { outputDir := some ⟨"out"⟩ } =
      .ok (listedAs blockingFiles blockingFiles.reverse (processAll plainBundler ⟨"src"⟩
        (some ⟨"out"⟩) meetingHost blockingFiles.reverse).1, h') := by
  have hwell : meetingHost.files.isWellFormed = true := by decide +kernel
  refine ⟨hwell, (runBatch_any_order hwell (batchFiles_blocking plainBundler rfl) ?_
    (List.reverse_perm _)).2⟩
  intro dir hdir
  cases hdir
  exact undisturbed_plain

/-- Each of two files fails behind the other one. -/
theorem outcomes_by_order :
    BatchFiles {} meetingHost ⟨"src"⟩ { outputDir := some ⟨"out"⟩ } blockingFiles ∧
      blockingFiles.reverse.Perm blockingFiles ∧
      listedAs blockingFiles blockingFiles
          (processAll {} ⟨"src"⟩ (some ⟨"out"⟩) meetingHost blockingFiles).1 ≠
        listedAs blockingFiles blockingFiles.reverse
          (processAll {} ⟨"src"⟩ (some ⟨"out"⟩) meetingHost blockingFiles.reverse).1 :=
  ⟨batchFiles_blocking {} rfl, List.reverse_perm _, by decide +kernel⟩

end Order

end ImportContext
