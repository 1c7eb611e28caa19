import ImportContext.Proofs.FileSystem.Nodes
import ImportContext.Proofs.Path.Parents

/-!
# Ways without links

Behind a directory that a path leads to, further names are followed one by one as long as no link
stands there. What stands on this way decides where a longer path leads, or how it fails.

Results:
* `Leads`, `exists_leads`, `Leads.walk`: the walks that end at a directory, or go on from one.
* `Leads.of_dropIdle_eq`, `walk_dropIdle`: idle pieces change nothing.
* `Leads.walk_append`: a longer path goes on from the directory that the shorter one leads to.
* `walk_append_of_node`: names are followed to what stands behind them.
* `way_cases`, `file_or_free`: what a way can meet.
-/

namespace ImportContext.FileSystem

open ImportContext.Path

variable {fs fs' : FileSystem} {follow create : Bool} {n : Nat} {p : Path} {m : String}
  {base names dir ps rest t u v : List String}

/-! ## Walks -/

/-- Where a walk goes on behind a link. -/
def onward (fs : FileSystem) (follow create : Bool) :
    Nat → List String → List String → Except OsError (List String)
  | 0 => fun _ _ => .error .tooManyLinks
  | n + 1 => fs.walk follow create n

theorem walk_eq (fs : FileSystem) (follow create : Bool) (n : Nat) :
    fs.walk follow create n = fs.walkPieces follow create (fs.onward follow create n) := by
  cases n with
  | zero => rfl
  | succ n => rfl

theorem walk_nil (fs : FileSystem) (follow create : Bool) (n : Nat) (base : List String) :
    fs.walk follow create n base [] = .ok base := by
  rw [walk_eq]
  rfl

/-- A walk asks what stands at its base and at the place of the next name. -/
theorem walk_cons (fs : FileSystem) (follow create : Bool) (n : Nat) (base : List String)
    (piece : String) (rest : List String) :
    fs.walk follow create n base (piece :: rest) =
      match fs.node? base with
      | some .directory =>
        if isIdle piece then fs.walk follow create n base rest
        else if piece == ".." then fs.walk follow create n base.dropLast rest
        else
          match fs.node? (base ++ [piece]) with
          | none => if create && rest.isEmpty then .ok (base ++ [piece]) else .error .notFound
          | some (.link target) =>
            if rest.isEmpty && !follow then .ok (base ++ [piece])
            else fs.onward follow create n (if target.isAbsolute then [] else base)
              (target.pieces ++ rest)
          | some _ => fs.walk follow create n (base ++ [piece]) rest
      | some _ => .error .notDirectory
      | none => .error .notFound := by
  simp only [walk_eq]
  exact walkPieces_cons fs follow create _ base piece rest

theorem walk_idle {piece : String} (hbase : fs.node? base = some .directory)
    (hidle : isIdle piece = true) :
    fs.walk follow create n base (piece :: rest) = fs.walk follow create n base rest := by
  rw [walk_cons, hbase]
  simp only [hidle, if_true]

theorem walk_up (hbase : fs.node? base = some .directory) :
    fs.walk follow create n base (".." :: rest) =
      fs.walk follow create n base.dropLast rest := by
  rw [walk_cons, hbase]
  rfl

theorem walk_name {name : String} (hbase : fs.node? base = some .directory)
    (hidle : isIdle name = false) (hup : name ≠ "..") :
    fs.walk follow create n base (name :: rest) =
      match fs.node? (base ++ [name]) with
      | none => if create && rest.isEmpty then .ok (base ++ [name]) else .error .notFound
      | some (.link target) =>
        if rest.isEmpty && !follow then .ok (base ++ [name])
        else fs.onward follow create n (if target.isAbsolute then [] else base)
          (target.pieces ++ rest)
      | some _ => fs.walk follow create n (base ++ [name]) rest := by
  rw [walk_cons, hbase]
  simp only [hidle, beq_eq_false_iff_ne.mpr hup, Bool.false_eq_true, if_false]

/-- Where a walk fails at once. -/
theorem walk_of_not_directory (hbase : fs.node? base ≠ some .directory) (hps : ps ≠ []) :
    fs.walk follow create n base ps =
      .error (if (fs.node? base).isSome then .notDirectory else .notFound) := by
  obtain ⟨piece, rest, rfl⟩ := List.exists_cons_of_ne_nil hps
  rw [walk_cons]
  split
  · next h => exact absurd h hbase
  · next h => rw [h]; rfl
  · next h => rw [h]; rfl

/-! ## To a directory -/

/-- Pieces lead from a base to a directory, behind at most `n` links. -/
inductive Leads (fs : FileSystem) (dir : List String) : Nat → List String → List String → Prop
  | here {n : Nat} : fs.node? dir = some .directory → Leads fs dir n dir []
  | idle {n : Nat} {base rest : List String} {piece : String} :
      fs.node? base = some .directory → isIdle piece = true →
      Leads fs dir n base rest → Leads fs dir n base (piece :: rest)
  | up {n : Nat} {base rest : List String} :
      fs.node? base = some .directory →
      Leads fs dir n base.dropLast rest → Leads fs dir n base (".." :: rest)
  | down {n : Nat} {base rest : List String} {name : String} {k : Node} :
      fs.node? base = some .directory → isIdle name = false → name ≠ ".." →
      fs.node? (base ++ [name]) = some k → (∀ target, k ≠ .link target) →
      Leads fs dir n (base ++ [name]) rest → Leads fs dir n base (name :: rest)
  | link {n : Nat} {base rest : List String} {name : String} {target : Path} :
      fs.node? base = some .directory → isIdle name = false → name ≠ ".." →
      fs.node? (base ++ [name]) = some (.link target) →
      Leads fs dir n (if target.isAbsolute then [] else base) (target.pieces ++ rest) →
      Leads fs dir (n + 1) base (name :: rest)

theorem Leads.directory (h : Leads fs dir n base ps) : fs.node? dir = some .directory := by
  induction h with
  | here hdir => exact hdir
  | idle _ _ _ ih => exact ih
  | up _ _ ih => exact ih
  | down _ _ _ _ _ _ ih => exact ih
  | link _ _ _ _ _ ih => exact ih

section Front

variable (hrest : ∀ n b, fs.walk true false n b rest = .ok names → fs.node? b = some .directory)
include hrest

/-- The front of a walk, given that it leads to a directory behind a link. -/
theorem exists_leads_of_onward
    (honward : ∀ b qs, fs.onward true false n b (qs ++ rest) = .ok names → ∃ n' dir m, n = n' + 1 ∧
      Leads fs dir n' b qs ∧ fs.walk true false m dir rest = .ok names)
    (h : fs.walk true false n base (ps ++ rest) = .ok names) :
    ∃ dir m, Leads fs dir n base ps ∧ fs.walk true false m dir rest = .ok names := by
  induction ps generalizing base with
  | nil => exact ⟨base, n, .here (hrest n base h), h⟩
  | cons piece ps ih =>
    rw [List.cons_append] at h
    have hbase : fs.node? base = some .directory := by
      by_contra hbase
      rw [walk_of_not_directory hbase (List.cons_ne_nil _ _)] at h
      cases h
    cases hidle : isIdle piece with
    | true =>
      rw [walk_idle hbase hidle] at h
      obtain ⟨dir, m, hdir, hgo⟩ := ih h
      exact ⟨dir, m, .idle hbase hidle hdir, hgo⟩
    | false =>
      by_cases hup : piece = ".."
      · subst hup
        rw [walk_up hbase] at h
        obtain ⟨dir, m, hdir, hgo⟩ := ih h
        exact ⟨dir, m, .up hbase hdir, hgo⟩
      · rw [walk_name hbase hidle hup] at h
        split at h
        · cases h
        · next target hnode =>
          simp only [Bool.not_true, Bool.and_false, Bool.false_eq_true, if_false] at h
          rw [← List.append_assoc] at h
          obtain ⟨n', dir, m, rfl, hdir, hgo⟩ := honward _ _ h
          exact ⟨dir, m, .link hbase hidle hup hnode hdir, hgo⟩
        · next k hk hnode =>
          obtain ⟨dir, m, hdir, hgo⟩ := ih h
          exact ⟨dir, m, .down hbase hidle hup hnode hk hdir, hgo⟩

/-- Where the rest of a walk has to start from a directory, the front leads to one. -/
theorem exists_leads (h : fs.walk true false n base (ps ++ rest) = .ok names) :
    ∃ dir m, Leads fs dir n base ps ∧ fs.walk true false m dir rest = .ok names := by
  induction n generalizing base ps with
  | zero =>
    refine exists_leads_of_onward hrest ?_ h
    intro b qs hgo
    cases hgo
  | succ n ihn =>
    refine exists_leads_of_onward hrest ?_ h
    intro b qs hgo
    obtain ⟨dir, m, hdir, hrest⟩ := ihn hgo
    exact ⟨n, dir, m, rfl, hdir, hrest⟩

end Front

theorem leads_of_walk (hdir : fs.node? dir = some .directory)
    (h : fs.walk true false n base ps = .ok dir) : Leads fs dir n base ps := by
  have hends : ∀ n b, fs.walk true false n b [] = .ok dir → b = dir := by
    intro n b hb
    rw [walk_nil] at hb
    exact Except.ok.inj hb
  rw [← List.append_nil ps] at h
  obtain ⟨dir', m, hleads, hgo⟩ := exists_leads (fun n b hb => hends n b hb ▸ hdir) h
  rwa [← hends m dir' hgo]

/-- More names lead on from a directory only. -/
theorem exists_leads_of_append (hrest : rest ≠ [])
    (h : fs.walk true false n base (ps ++ rest) = .ok names) : ∃ dir, Leads fs dir n base ps := by
  have hstarts : ∀ n b, fs.walk true false n b rest = .ok names →
      fs.node? b = some .directory := by
    intro n b hb
    by_contra hdir
    rw [walk_of_not_directory hdir hrest] at hb
    cases hb
  obtain ⟨dir, -, hleads, -⟩ := exists_leads hstarts h
  exact ⟨dir, hleads⟩

theorem Leads.walk (h : Leads fs dir n base ps) : fs.walk true false n base ps = .ok dir := by
  induction h with
  | here hdir => exact walk_nil ..
  | idle hbase hidle _ ih => rw [walk_idle hbase hidle, ih]
  | up hbase _ ih => rw [walk_up hbase, ih]
  | @down n base rest name k hbase hidle hup hnode hk _ ih =>
    rw [walk_name hbase hidle hup, hnode]
    cases k with
    | directory => exact ih
    | file bytes executable => exact ih
    | link target => exact absurd rfl (hk target)
  | link hbase hidle hup hnode _ ih =>
    rw [walk_name hbase hidle hup, hnode]
    simp only [Bool.not_true, Bool.and_false, Bool.false_eq_true, if_false]
    exact ih

/-- Where the end of a path is followed to a directory, it leads if it is not followed as well. -/
theorem Leads.exists_unfollowed (h : Leads fs dir n base ps) :
    ∃ names, fs.walk false false n base ps = .ok names := by
  induction h with
  | here hdir => exact ⟨_, walk_nil ..⟩
  | idle hbase hidle _ ih => rwa [walk_idle hbase hidle]
  | up hbase _ ih => rwa [walk_up hbase]
  | @down n base rest name k hbase hidle hup hnode hk _ ih =>
    rw [walk_name hbase hidle hup, hnode]
    cases k with
    | directory => exact ih
    | file bytes executable => exact ih
    | link target => exact absurd rfl (hk target)
  | link hbase hidle hup hnode _ ih =>
    rw [walk_name hbase hidle hup, hnode]
    simp only
    split
    · exact ⟨_, rfl⟩
    · exact ih

/-- A longer path goes on from the directory that the shorter one leads to. -/
theorem Leads.walk_append (h : Leads fs dir n base ps) : ∃ n', ∀ follow create rest, rest ≠ [] →
    fs.walk follow create n base (ps ++ rest) = fs.walk follow create n' dir rest := by
  induction h with
  | @here n hdir => exact ⟨n, fun _ _ _ _ => rfl⟩
  | idle hbase hidle _ ih =>
    obtain ⟨n', hn'⟩ := ih
    refine ⟨n', fun follow create rest hrest => ?_⟩
    rw [List.cons_append, walk_idle hbase hidle, hn' follow create rest hrest]
  | up hbase _ ih =>
    obtain ⟨n', hn'⟩ := ih
    refine ⟨n', fun follow create rest hrest => ?_⟩
    rw [List.cons_append, walk_up hbase, hn' follow create rest hrest]
  | @down n base tail name k hbase hidle hup hnode hk _ ih =>
    obtain ⟨n', hn'⟩ := ih
    refine ⟨n', fun follow create rest hrest => ?_⟩
    rw [List.cons_append, walk_name hbase hidle hup, hnode]
    cases k with
    | directory => exact hn' follow create rest hrest
    | file bytes executable => exact hn' follow create rest hrest
    | link target => exact absurd rfl (hk target)
  | @link n base tail name target hbase hidle hup hnode _ ih =>
    obtain ⟨n', hn'⟩ := ih
    refine ⟨n', fun follow create rest hrest => ?_⟩
    have hmore : (tail ++ rest).isEmpty = false := by simp [hrest]
    rw [List.cons_append, walk_name hbase hidle hup, hnode]
    simp only [hmore, Bool.false_and, Bool.false_eq_true, if_false]
    rw [← List.append_assoc]
    exact hn' follow create rest hrest

/-- Where everything is kept, pieces lead where they led. -/
theorem Leads.mono (h : Leads fs dir n base ps) (hext : fs.Extends fs') :
    Leads fs' dir n base ps := by
  induction h with
  | here hdir => exact .here (hext.directory hdir)
  | idle hbase hidle _ ih => exact .idle (hext.directory hbase) hidle ih
  | up hbase _ ih => exact .up (hext.directory hbase) ih
  | @down n base rest name k hbase hidle hup hnode hk _ ih =>
    obtain ⟨k', hk', hlike⟩ := hext _ _ hnode
    refine .down (hext.directory hbase) hidle hup hk' ?_ ih
    rintro target rfl
    cases k with
    | directory => cases hlike
    | file bytes executable => cases hlike
    | link target' => exact hk target' rfl
  | link hbase hidle hup hnode _ ih =>
    exact .link (hext.directory hbase) hidle hup (hext.link hnode) ih

/-! ## Idle pieces -/

theorem Leads.base_directory (h : Leads fs dir n base ps) : fs.node? base = some .directory := by
  cases h with
  | here hdir => exact hdir
  | idle hbase => exact hbase
  | up hbase => exact hbase
  | down hbase => exact hbase
  | link hbase => exact hbase

theorem Leads.idle_append (h : Leads fs dir n base rest) (hps : ∀ s ∈ ps, isIdle s = true) :
    Leads fs dir n base (ps ++ rest) := by
  induction ps with
  | nil => exact h
  | cons piece ps ih =>
    exact .idle h.base_directory (hps piece List.mem_cons_self)
      (ih fun s hs => hps s (List.mem_cons_of_mem _ hs))

theorem exists_of_dropIdle_eq_cons {name : String} (h : dropIdle ps = name :: rest) :
    ∃ zs qs, ps = zs ++ name :: qs ∧ (∀ s ∈ zs, isIdle s = true) ∧ dropIdle qs = rest := by
  obtain ⟨zs, qs, rfl, hzs, -, hqs⟩ := List.filter_eq_cons_iff.mp h
  exact ⟨zs, qs, rfl, by simpa using hzs, hqs⟩

/-- Only the steps count on the way to a directory. -/
theorem Leads.of_dropIdle_eq (h : Leads fs dir n base ps) {qs : List String}
    (hsame : dropIdle qs = dropIdle ps) : Leads fs dir n base qs := by
  induction h generalizing qs with
  | here hdir =>
    have hidle : ∀ s ∈ qs, isIdle s = true := by
      simpa [dropIdle] using hsame
    simpa using (Leads.here hdir).idle_append hidle
  | idle _ hidle _ ih => exact ih (hsame.trans (dropIdle_cons_idle hidle))
  | up hbase _ ih =>
    obtain ⟨zs, qs, rfl, hzs, hqs⟩ := exists_of_dropIdle_eq_cons
      (hsame.trans (dropIdle_cons_step (by decide)))
    exact (Leads.up hbase (ih hqs)).idle_append hzs
  | down hbase hstep hup hnode hk _ ih =>
    obtain ⟨zs, qs, rfl, hzs, hqs⟩ := exists_of_dropIdle_eq_cons
      (hsame.trans (dropIdle_cons_step hstep))
    exact (Leads.down hbase hstep hup hnode hk (ih hqs)).idle_append hzs
  | link hbase hstep hup hnode _ ih =>
    obtain ⟨zs, qs, rfl, hzs, hqs⟩ := exists_of_dropIdle_eq_cons
      (hsame.trans (dropIdle_cons_step hstep))
    refine (Leads.link hbase hstep hup hnode (ih ?_)).idle_append hzs
    rw [dropIdle_append, dropIdle_append, hqs]

/-- The steps of a path lead where the path does. -/
theorem leads_of_resolve (hdir : fs.node? dir = some .directory)
    (hp : fs.resolve true p = .ok dir) : Leads fs dir maxLinks [] p.steps := by
  rw [resolve] at hp
  split at hp
  · cases hp
  · exact (leads_of_walk hdir hp).of_dropIdle_eq (dropIdle_dropIdle p.pieces)

/-- Idle pieces before the last piece change nothing. -/
theorem walk_dropIdle (n : Nat) (base ps : List String) (m : String) :
    fs.walk follow create n base (ps ++ [m]) =
      fs.walk follow create n base (dropIdle ps ++ [m]) := by
  induction n using Nat.strongRecOn generalizing base ps with
  | ind n ihn =>
  induction ps generalizing base with
  | nil => rfl
  | cons piece rest ih =>
    by_cases hbase : fs.node? base = some .directory
    · cases hidle : isIdle piece with
      | true => rw [dropIdle_cons_idle hidle, List.cons_append, walk_idle hbase hidle, ih]
      | false =>
        rw [dropIdle_cons_step hidle, List.cons_append, List.cons_append]
        by_cases hup : piece = ".."
        · rw [hup, walk_up hbase, walk_up hbase, ih]
        · rw [walk_name hbase hidle hup, walk_name hbase hidle hup, ih]
          have hmore : ∀ qs, (qs ++ [m]).isEmpty = false := by simp
          have honward : ∀ b qs, fs.onward follow create n b (qs ++ (rest ++ [m])) =
              fs.onward follow create n b (qs ++ (dropIdle rest ++ [m])) := by
            intro b qs
            cases n with
            | zero => rfl
            | succ n =>
              rw [onward, ← List.append_assoc, ← List.append_assoc,
                ihn n n.lt_succ_self b (qs ++ rest), ihn n n.lt_succ_self b (qs ++ dropIdle rest),
                dropIdle_append, dropIdle_append, dropIdle_dropIdle]
          simp only [hmore, honward]
    · rw [walk_of_not_directory hbase (by simp), walk_of_not_directory hbase (by simp)]

/-! ## Names -/

/-- No link stands on the way along some names. -/
def Clear (fs : FileSystem) (dir names : List String) : Prop :=
  ∀ u, u <+: names → ∀ target, fs.node? (dir ++ u) ≠ some (.link target)

theorem Clear.of_prefix (h : fs.Clear dir t) (hu : u <+: t) : fs.Clear dir u :=
  fun v hv => h v (hv.trans hu)

theorem Clear.tail (h : fs.Clear dir (m :: t)) : fs.Clear (dir ++ [m]) t := by
  intro u hu target
  rw [List.append_assoc]
  exact h (m :: u) (List.cons_prefix_cons.mpr ⟨rfl, hu⟩) target

/-- What stands behind some names stands in a directory. -/
theorem node?_of_append {k : Node} (h : fs.node? (u ++ v) = some k) (hv : v ≠ []) :
    fs.node? u = some .directory := by
  induction v using List.reverseRecOn generalizing k with
  | nil => exact absurd rfl hv
  | append_singleton v m ih =>
    rw [← List.append_assoc] at h
    have hparent := node?_parent h
    cases v with
    | nil => rwa [List.append_nil] at hparent
    | cons s v => exact ih hparent (by simp)

/-- Nothing stands on a way that begins with a missing name. -/
theorem clear_of_missing (hdir : fs.node? dir = some .directory)
    (hm : fs.node? (dir ++ [m]) = none) (t : List String) : fs.Clear dir (m :: t) := by
  intro u hu target hlink
  cases u with
  | nil =>
    rw [List.append_nil, hdir] at hlink
    cases hlink
  | cons s u =>
    obtain ⟨rfl, -⟩ := List.cons_prefix_cons.mp hu
    by_cases hnil : u = []
    · rw [hnil, hm] at hlink
      cases hlink
    · rw [← List.singleton_append, ← List.append_assoc] at hlink
      rw [node?_of_append hlink hnil] at hm
      cases hm

/-- Names are followed to what stands behind them. -/
theorem walk_append_of_node (follow create : Bool) (n : Nat) (v : List String) {k : Node}
    (hnames : ∀ s ∈ u, IsName s) (hclear : fs.Clear dir u) (h : fs.node? (dir ++ u) = some k) :
    fs.walk follow create n dir (u ++ v) = fs.walk follow create n (dir ++ u) v := by
  induction u generalizing dir with
  | nil => rw [List.append_nil, List.nil_append]
  | cons m u ih =>
    have hm := hnames m List.mem_cons_self
    have hsplit : dir ++ m :: u = (dir ++ [m]) ++ u := by simp
    have hdir : fs.node? dir = some .directory := node?_of_append h (List.cons_ne_nil m u)
    obtain ⟨k', hk'⟩ : ∃ k', fs.node? (dir ++ [m]) = some k' := by
      cases u with
      | nil => exact ⟨k, h⟩
      | cons s u => exact ⟨_, node?_of_append (hsplit ▸ h) (by simp)⟩
    have hrest := ih (fun s hs => hnames s (List.mem_cons_of_mem _ hs)) hclear.tail (hsplit ▸ h)
    rw [List.cons_append, walk_name hdir (isIdle_of_isName hm) hm.2.2.1, hk', hsplit, ← hrest]
    cases k' with
    | directory => rfl
    | file bytes executable => rfl
    | link target =>
      have hlink := hclear [m] (List.cons_prefix_cons.mpr ⟨rfl, List.nil_prefix⟩) target
      exact absurd hk' hlink

/-- A way ends at something, breaks off where nothing stands, or runs into a file. -/
theorem way_cases (hdir : fs.node? dir = some .directory) (hclear : fs.Clear dir t) :
    (∃ k, fs.node? (dir ++ t) = some k) ∨
      (∃ u m v, t = u ++ m :: v ∧ fs.node? (dir ++ u) = some .directory ∧
        fs.node? (dir ++ u ++ [m]) = none) ∨
      ∃ u v bytes executable, t = u ++ v ∧ v ≠ [] ∧
        fs.node? (dir ++ u) = some (.file bytes executable) := by
  induction t using List.reverseRecOn with
  | nil => exact .inl ⟨_, by rwa [List.append_nil]⟩
  | append_singleton t m ih =>
    rcases ih (hclear.of_prefix (List.prefix_append t [m])) with
      ⟨k, hk⟩ | ⟨u, s, v, rfl, hu, hs⟩ | ⟨u, v, bytes, executable, rfl, hv, hfile⟩
    · cases k with
      | directory =>
        cases hnode : fs.node? (dir ++ t ++ [m]) with
        | none => exact .inr (.inl ⟨t, m, [], rfl, hk, hnode⟩)
        | some k => exact .inl ⟨k, by rw [← List.append_assoc, hnode]⟩
      | file bytes executable =>
        exact .inr (.inr ⟨t, [m], bytes, executable, rfl, by simp, hk⟩)
      | link target => exact absurd hk (hclear t (List.prefix_append t [m]) target)
    · exact .inr (.inl ⟨u, s, v ++ [m], by simp, hu, hs⟩)
    · exact .inr (.inr ⟨u, v ++ [m], bytes, executable, by simp, by simp, hfile⟩)

/-- A file stands on a way, or nothing but directories does. -/
theorem file_or_free (hclear : fs.Clear dir t) :
    (∃ u, u <+: t ∧ ∃ bytes executable, fs.node? (dir ++ u) = some (.file bytes executable)) ∨
      ∀ u, u <+: t → ∀ k, fs.node? (dir ++ u) = some k → k = .directory := by
  by_cases hfile : ∃ u, u <+: t ∧
      ∃ bytes executable, fs.node? (dir ++ u) = some (.file bytes executable)
  · exact .inl hfile
  · refine .inr fun u hu k hk => ?_
    cases k with
    | directory => rfl
    | file bytes executable => exact absurd ⟨u, hu, bytes, executable, hk⟩ hfile
    | link target => exact absurd hk (hclear u hu target)

end ImportContext.FileSystem
