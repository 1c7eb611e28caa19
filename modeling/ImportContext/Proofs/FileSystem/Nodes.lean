import ImportContext.FileSystem.Basic
import ImportContext.Proofs.Fallible

/-!
# What stands at a place

At a list of names there is a directory, a file, a link or nothing. This view decides where paths
lead, and a change of the file system changes it at one place. A file system that keeps what
stands in another one leads wherever that one does.

Results:
* `node?_put`: putting an entry into a directory changes one place.
* `walkPieces_cons`: a walk asks only what stands at the next place.
* `resolve_mono`: where everything is kept, paths lead where they led.
* `resolve_of_resolvePlace`: once a file stands at a place, the path leads there.
-/

namespace ImportContext

/-- What stands at a place. -/
inductive Node where
  | directory
  | file (bytes : ByteArray) (executable : Bool)
  | link (target : Path)

/-- A directory for a directory, a file for a file, a link for the same link. -/
def Node.Like : Node → Node → Prop
  | directory, directory => True
  | file _ _, file _ _ => True
  | link target, link target' => target = target'
  | _, _ => False

theorem Node.Like.refl (n : Node) : n.Like n := by
  cases n with
  | directory => trivial
  | file bytes executable => trivial
  | link target => rfl

theorem Node.Like.trans {a b c : Node} (hab : a.Like b) (hbc : b.Like c) : a.Like c := by
  cases a <;> cases b <;> cases c <;> simp_all [Node.Like]

namespace Entry

def node : Entry → Node
  | file _ bytes executable => .file bytes executable
  | link _ target => .link target
  | directory _ _ => .directory

/-! ## Entries of one directory -/

theorem name_of_find? {entries : List Entry} {n : String} {e : Entry}
    (h : find? entries n = some e) : e.name = n := by
  exact beq_iff_eq.mp (List.find?_some (p := fun x : Entry => x.name == n) h)

theorem find?_put (entries : List Entry) (e : Entry) (n : String) :
    find? (put entries e) n = if n = e.name then some e else find? entries n := by
  rw [put]
  split
  · next hany =>
    -- an entry that is replaced keeps its name
    have hname : ∀ x : Entry, (if x.name == e.name then e else x).name = x.name := by
      intro x
      split
      · next h => exact (beq_iff_eq.mp h).symm
      · rfl
    have hfind : find? (entries.map fun x => if x.name == e.name then e else x) n =
        (find? entries n).map fun x => if x.name == e.name then e else x := by
      rw [find?, List.find?_map]
      simp only [Function.comp_def, hname]
      rfl
    rw [hfind]
    split
    · next hn =>
      obtain ⟨x, hx, hxname⟩ := List.any_eq_true.mp hany
      obtain ⟨y, hy⟩ : ∃ y, find? entries n = some y := by
        refine Option.isSome_iff_exists.mp (List.find?_isSome.mpr ⟨x, hx, ?_⟩)
        rw [hn]
        exact hxname
      have hyname : (y.name == e.name) = true := by
        rw [name_of_find? hy, hn, beq_self_eq_true]
      rw [hy, Option.map_some, if_pos hyname]
    · next hn =>
      cases hfound : find? entries n with
      | none => rfl
      | some y =>
        rw [Option.map_some, if_neg]
        rw [name_of_find? hfound, beq_iff_eq]
        exact hn
  · next hany =>
    have hnone : find? entries e.name = none := by
      refine List.find?_eq_none.mpr ?_
      intro x hx hxname
      exact hany (List.any_eq_true.mpr ⟨x, hx, hxname⟩)
    rw [find?, List.find?_append]
    split
    · next hn =>
      subst hn
      have hmiss : entries.find? (·.name == e.name) = none := hnone
      rw [hmiss]
      simp
    · next hn =>
      have hlast : [e].find? (·.name == n) = none := by
        simp [Ne.symm hn]
      rw [hlast, Option.or_none]
      rfl

/-! ## Below a directory -/

theorem descend_append (e : Entry) (as bs : List String) :
    e.descend (as ++ bs) = (e.descend as).bind fun e => e.descend bs := by
  induction as generalizing e with
  | nil => cases e <;> rfl
  | cons a as ih =>
    cases e with
    | file name bytes executable => rfl
    | link name target => rfl
    | directory name children =>
      rw [List.cons_append, descend, descend]
      cases find? children a with
      | none => rfl
      | some next => exact ih next

/-- Nothing stands below a file or a link. -/
theorem descend_cons_of_node {e : Entry} (h : e.node ≠ .directory) (n : String)
    (rest : List String) : e.descend (n :: rest) = none := by
  cases e with
  | file name bytes executable => rfl
  | link name target => rfl
  | directory name children => exact absurd rfl h

end Entry

namespace FileSystem

open Entry

/-- The entry of a change below one of the entries of a directory. -/
def modifyEntry (f : List Entry → List Entry) (n : String) (rest : List String) (e : Entry) :
    Entry :=
  match e with
  | .directory name children =>
    if name == n then .directory name (modifyChildren f rest children) else e
  | _ => e

theorem name_modifyEntry (f : List Entry → List Entry) (n : String) (rest : List String)
    (e : Entry) : (modifyEntry f n rest e).name = e.name := by
  cases e with
  | file name bytes executable => rfl
  | link name target => rfl
  | directory name children =>
    rw [modifyEntry]
    split
    · rfl
    · rfl

theorem find?_modifyChildren (f : List Entry → List Entry) (n : String) (rest : List String)
    (entries : List Entry) (m : String) :
    find? (modifyChildren f (n :: rest) entries) m =
      (find? entries m).map (modifyEntry f n rest) := by
  have hmap : modifyChildren f (n :: rest) entries = entries.map (modifyEntry f n rest) := by
    rw [modifyChildren]
    rfl
  rw [hmap, find?, List.find?_map]
  simp only [Function.comp_def, name_modifyEntry]
  rfl

/-- The directory that is changed has the changed children. -/
theorem descend_modifyChildren_self {f : List Entry → List Entry} {names : List String}
    {top : String} {entries : List Entry} {name : String} {children : List Entry}
    (h : (Entry.directory top entries).descend names = some (.directory name children)) :
    ∃ name', (Entry.directory top (modifyChildren f names entries)).descend names =
      some (.directory name' (f children)) := by
  induction names generalizing top entries with
  | nil =>
    obtain ⟨rfl, rfl⟩ : top = name ∧ entries = children := by simpa [descend] using h
    exact ⟨top, rfl⟩
  | cons n rest ih =>
    rw [descend] at h
    rw [descend, find?_modifyChildren]
    cases hfound : find? entries n with
    | none => simp [hfound] at h
    | some e =>
      simp only [hfound] at h
      have hname : e.name = n := name_of_find? hfound
      cases e with
      | file name' bytes executable => cases rest <;> simp [descend] at h
      | link name' target => cases rest <;> simp [descend] at h
      | directory name' below =>
        obtain rfl : name' = n := hname
        simp only [Option.map_some, modifyEntry, beq_self_eq_true, if_true]
        exact ih h

/-- A place that is not at or below the changed directory stays. -/
theorem node_descend_modifyChildren {f : List Entry → List Entry} {names q : List String}
    {top : String} {entries : List Entry} (hq : ¬ names <+: q) :
    ((Entry.directory top (modifyChildren f names entries)).descend q).map Entry.node =
      ((Entry.directory top entries).descend q).map Entry.node := by
  induction names generalizing top entries q with
  | nil => exact absurd List.nil_prefix hq
  | cons n rest ih =>
    cases q with
    | nil => rfl
    | cons m q =>
      rw [descend, descend, find?_modifyChildren]
      cases hfound : find? entries m with
      | none => rfl
      | some e =>
        have hname : e.name = m := name_of_find? hfound
        simp only [Option.map_some]
        cases e with
        | file name' bytes executable => rfl
        | link name' target => rfl
        | directory name' below =>
          obtain rfl : name' = m := hname
          rw [modifyEntry]
          split
          · next hn =>
            obtain rfl : name' = n := beq_iff_eq.mp hn
            refine ih ?_
            intro hprefix
            exact hq (List.cons_prefix_cons.mpr ⟨rfl, hprefix⟩)
          · rfl

/-! ## Places -/

/-- What stands at a list of names, no link followed. -/
def node? (fs : FileSystem) (names : List String) : Option Node :=
  (fs.entry? names).map Entry.node

variable {fs fs' : FileSystem} {q dir base names : List String} {n name : String}

theorem exists_directory (h : fs.node? q = some .directory) :
    ∃ name children, fs.entry? q = some (.directory name children) := by
  obtain ⟨e, he, hnode⟩ := Option.map_eq_some_iff.mp h
  cases e with
  | file name bytes executable => cases hnode
  | link name target => cases hnode
  | directory name children => exact ⟨name, children, he⟩

/-- What stands in a directory. -/
theorem entry?_child {children : List Entry}
    (h : fs.entry? q = some (.directory name children)) (n : String) :
    fs.entry? (q ++ [n]) = find? children n := by
  rw [ entry?, descend_append]
  rw [ entry?] at h
  rw [h, Option.bind_some, descend]
  cases find? children n with
  | none => rfl
  | some e => cases e <;> rfl

/-- What stands below a place stands in a directory. -/
theorem node?_parent {k : Node} (h : fs.node? (q ++ [n]) = some k) :
    fs.node? q = some .directory := by
  obtain ⟨e, he, -⟩ := Option.map_eq_some_iff.mp h
  rw [ entry?, descend_append] at he
  obtain ⟨d, hd, he⟩ := Option.bind_eq_some_iff.mp he
  cases d with
  | file name bytes executable => cases he
  | link name target => cases he
  | directory name children => exact Option.map_eq_some_iff.mpr ⟨_, hd, rfl⟩

theorem node?_dropLast (h : (fs.node? q).isSome) :
    fs.node? q.dropLast = some .directory ∨ q = [] := by
  cases hq : q.reverse with
  | nil => exact .inr (List.reverse_eq_nil_iff.mp hq)
  | cons n rest =>
    have hsplit : q = rest.reverse ++ [n] := by
      rw [← List.reverse_cons, ← hq, List.reverse_reverse]
    obtain ⟨k, hk⟩ := Option.isSome_iff_exists.mp h
    rw [hsplit] at hk
    rw [hsplit, List.dropLast_concat]
    exact .inl (node?_parent hk)

/-- An entry without children put into a directory, where no directory was, changes one place. -/
theorem node?_put {e : Entry} (hdir : fs.node? dir = some .directory)
    (hold : fs.node? (dir ++ [e.name]) ≠ some .directory)
    (he : ∀ n rest, e.descend (n :: rest) = none) :
    (fs.updateDirectory dir (put · e)).node? q =
      if q = dir ++ [e.name] then some e.node else fs.node? q := by
  obtain ⟨name, children, hentry⟩ := exists_directory hdir
  obtain ⟨name', hchanged⟩ := descend_modifyChildren_self (f := (put · e)) hentry
  by_cases hprefix : dir <+: q
  · obtain ⟨t, rfl⟩ := hprefix
    have hnew : FileSystem.entry? (fs.updateDirectory dir (put · e)) (dir ++ t) =
        (Entry.directory name' (put children e)).descend t := by
      rw [ entry?, descend_append, root, updateDirectory]
      rw [hchanged, Option.bind_some]
    have hbefore : fs.entry? (dir ++ t) = (Entry.directory name children).descend t := by
      rw [ entry?, descend_append, ← entry?, hentry, Option.bind_some]
    rw [node?, node?, hnew, hbefore]
    cases t with
    | nil =>
      rw [if_neg (by simp)]
      rfl
    | cons n rest =>
      rw [descend, descend, find?_put]
      by_cases hn : n = e.name
      · rw [if_pos hn]
        cases rest with
        | nil =>
          rw [if_pos (by rw [hn])]
          cases e <;> rfl
        | cons m rest =>
          have hlonger : dir ++ n :: m :: rest ≠ dir ++ [e.name] := by simp
          rw [if_neg hlonger]
          simp only [he, Option.map_none]
          -- what stood there before had nothing below it
          cases hfound : find? children n with
          | none => rfl
          | some x =>
            have hx : x.node ≠ .directory := by
              intro hx
              refine hold ?_
              rw [node?, entry?_child hentry, ← hn, hfound, Option.map_some, hx]
            simp only [descend_cons_of_node hx, Option.map_none]
      · have hother : dir ++ n :: rest ≠ dir ++ [e.name] := by
          simpa using fun h => absurd h hn
        rw [if_neg hn, if_neg hother]
  · rw [if_neg]
    · exact node_descend_modifyChildren hprefix
    · rintro rfl
      exact hprefix (List.prefix_append _ _)

/-! ## Walks -/

/-- A walk asks what stands at its base and at the place that the next piece names. -/
theorem walkPieces_cons (fs : FileSystem) (follow create : Bool)
    (jump : List String → List String → Except OsError (List String)) (base : List String)
    (p : String) (rest : List String) :
    fs.walkPieces follow create jump base (p :: rest) =
      match fs.node? base with
      | some .directory =>
        if p == "" || p == "." then fs.walkPieces follow create jump base rest
        else if p == ".." then fs.walkPieces follow create jump base.dropLast rest
        else
          match fs.node? (base ++ [p]) with
          | none => if create && rest.isEmpty then .ok (base ++ [p]) else .error .notFound
          | some (.link target) =>
            if rest.isEmpty && !follow then .ok (base ++ [p])
            else jump (if target.isAbsolute then [] else base) (target.pieces ++ rest)
          | some _ => fs.walkPieces follow create jump (base ++ [p]) rest
      | some _ => .error .notDirectory
      | none => .error .notFound := by
  rw [walkPieces]
  cases hentry : fs.entry? base with
  | none => simp only [node?, hentry, Option.map_none]
  | some e =>
    cases e with
    | file name bytes executable => simp only [node?, hentry, Option.map_some, node]
    | link name target => simp only [node?, hentry, Option.map_some, node]
    | directory name children =>
      have hbase : fs.node? base = some .directory := Option.map_eq_some_iff.mpr ⟨_, hentry, rfl⟩
      rw [hbase, node?, entry?_child hentry]
      dsimp only
      cases find? children p with
      | none => rfl
      | some x => cases x <;> rfl

/-- Whatever stands in the first file system stands in the second, a file perhaps rewritten. -/
def Extends (fs fs' : FileSystem) : Prop :=
  ∀ q k, fs.node? q = some k → ∃ k', fs'.node? q = some k' ∧ k.Like k'

theorem Extends.refl (fs : FileSystem) : fs.Extends fs :=
  fun _ k h => ⟨k, h, .refl k⟩

theorem Extends.trans {a b c : FileSystem} (hab : a.Extends b) (hbc : b.Extends c) :
    a.Extends c := by
  intro q k hk
  obtain ⟨k', hk', hlike⟩ := hab q k hk
  obtain ⟨k'', hk'', hlike'⟩ := hbc q k' hk'
  exact ⟨k'', hk'', hlike.trans hlike'⟩

theorem Extends.directory (h : fs.Extends fs') (hq : fs.node? q = some .directory) :
    fs'.node? q = some .directory := by
  obtain ⟨k, hk, hlike⟩ := h q _ hq
  cases k with
  | directory => exact hk
  | file bytes executable => cases hlike
  | link target => cases hlike

theorem Extends.link {target : Path} (h : fs.Extends fs') (hq : fs.node? q = some (.link target)) :
    fs'.node? q = some (.link target) := by
  obtain ⟨k, hk, hlike⟩ := h q _ hq
  cases k with
  | directory => cases hlike
  | file bytes executable => cases hlike
  | link target' => rw [hk, show target = target' from hlike]

theorem Extends.file {bytes : ByteArray} {executable : Bool} (h : fs.Extends fs')
    (hq : fs.node? q = some (.file bytes executable)) :
    ∃ bytes' executable', fs'.node? q = some (.file bytes' executable') := by
  obtain ⟨k, hk, hlike⟩ := h q _ hq
  cases k with
  | directory => cases hlike
  | file bytes' executable' => exact ⟨bytes', executable', hk⟩
  | link target => cases hlike

section Mono

variable {follow create : Bool}

/-- A walk of the first file system is one of the second. If the walk was to end at a missing
place, a file has to stand there now. -/
theorem walkPieces_mono {jump jump' : List String → List String → Except OsError (List String)}
    {ps : List String} (hext : fs.Extends fs')
    (hjump : ∀ b ps, jump b ps = .ok names → jump' b ps = .ok names)
    (hnew : create = true → ∃ bytes executable, fs'.node? names = some (.file bytes executable))
    (h : fs.walkPieces follow create jump base ps = .ok names) :
    fs'.walkPieces follow false jump' base ps = .ok names := by
  induction ps generalizing base with
  | nil => exact h
  | cons p rest ih =>
    rw [walkPieces_cons] at h ⊢
    split at h
    · next hbase =>
      simp only [hext.directory hbase]
      split at h
      · next hidle =>
        rw [if_pos hidle]
        exact ih h
      · next hidle =>
        rw [if_neg hidle]
        split at h
        · next hup =>
          rw [if_pos hup]
          exact ih h
        · next hup =>
          rw [if_neg hup]
          split at h
          · split at h
            · next hlast =>
              obtain ⟨hcreate, hrest⟩ := Bool.and_eq_true_iff.mp hlast
              obtain rfl := List.isEmpty_iff.mp hrest
              cases h
              obtain ⟨bytes, executable, hfile⟩ := hnew hcreate
              simp only [hfile]
              rfl
            · cases h
          · next target hlink =>
            simp only [hext.link hlink]
            split at h
            · next hlast =>
              rw [if_pos hlast]
              exact h
            · next hlast =>
              rw [if_neg hlast]
              exact hjump _ _ h
          · next k hk hnode =>
            cases k with
            | directory =>
              simp only [hext.directory hnode]
              exact ih h
            | file bytes executable =>
              obtain ⟨bytes', executable', hfile⟩ := hext.file hnode
              simp only [hfile]
              exact ih h
            | link target => exact absurd rfl (hk target)
    · cases h
    · cases h

theorem walk_mono {n : Nat} {ps : List String} (hext : fs.Extends fs')
    (hnew : create = true → ∃ bytes executable, fs'.node? names = some (.file bytes executable))
    (h : fs.walk follow create n base ps = .ok names) :
    fs'.walk follow false n base ps = .ok names := by
  induction n generalizing base ps with
  | zero =>
    rw [walk] at h ⊢
    refine walkPieces_mono hext ?_ hnew h
    intro b ps hjump
    cases hjump
  | succ n ih =>
    rw [walk] at h ⊢
    exact walkPieces_mono hext (fun _ _ => ih) hnew h

end Mono

/-- Where everything is kept, paths lead where they led. -/
theorem resolve_mono {follow : Bool} {p : Path} (hext : fs.Extends fs')
    (h : fs.resolve follow p = .ok names) : fs'.resolve follow p = .ok names := by
  rw [resolve] at h ⊢
  split at h
  · cases h
  · next hne =>
    rw [if_neg hne]
    exact walk_mono hext (fun h => absurd h (by decide)) h

/-- Once a file stands at a place, the path leads there. -/
theorem resolve_of_resolvePlace {p : Path} {bytes : ByteArray} {executable : Bool}
    (hext : fs.Extends fs') (hfile : fs'.node? names = some (.file bytes executable))
    (h : fs.resolvePlace p = .ok names) : fs'.resolve true p = .ok names := by
  rw [resolvePlace] at h
  rw [resolve]
  split at h
  · cases h
  · next hne =>
    rw [if_neg hne]
    exact walk_mono hext (fun _ => ⟨bytes, executable, hfile⟩) h

/-- A place for an entry is one that exists, or a missing one in a directory. -/
def IsPlace (fs : FileSystem) (q : List String) : Prop :=
  (fs.node? q).isSome ∨ ∃ dir n, q = dir ++ [n] ∧ fs.node? dir = some .directory

theorem walkPieces_isPlace {follow create : Bool}
    {jump : List String → List String → Except OsError (List String)} {ps : List String}
    (hjump : ∀ b ps, (fs.node? b).isSome → jump b ps = .ok names → fs.IsPlace names)
    (hbase : (fs.node? base).isSome) (h : fs.walkPieces follow create jump base ps = .ok names) :
    fs.IsPlace names := by
  induction ps generalizing base with
  | nil =>
    cases h
    exact .inl hbase
  | cons p rest ih =>
    rw [walkPieces_cons] at h
    split at h
    · next hdirectory =>
      split at h
      · exact ih hbase h
      · split at h
        · refine ih ?_ h
          rcases node?_dropLast hbase with hparent | rfl
          · rw [hparent]
            rfl
          · exact hbase
        · split at h
          · split at h
            · cases h
              exact .inr ⟨base, p, rfl, hdirectory⟩
            · cases h
          · next target hlink =>
            split at h
            · cases h
              exact .inl (by rw [hlink]; rfl)
            · refine hjump _ _ ?_ h
              split
              · rfl
              · exact hbase
          · next k _ hnode =>
            refine ih ?_ h
            rw [hnode]
            rfl
    · cases h
    · cases h

theorem walk_isPlace {follow create : Bool} {n : Nat} {ps : List String}
    (hbase : (fs.node? base).isSome) (h : fs.walk follow create n base ps = .ok names) :
    fs.IsPlace names := by
  induction n generalizing base ps with
  | zero =>
    rw [walk] at h
    refine walkPieces_isPlace ?_ hbase h
    intro b ps _ hjump
    cases hjump
  | succ n ih =>
    rw [walk] at h
    exact walkPieces_isPlace (fun _ _ => ih) hbase h

theorem resolvePlace_isPlace {p : Path} (h : fs.resolvePlace p = .ok names) : fs.IsPlace names := by
  rw [resolvePlace] at h
  split at h
  · cases h
  · exact walk_isPlace rfl h

end FileSystem

end ImportContext
