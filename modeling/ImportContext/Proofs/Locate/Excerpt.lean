import ImportContext.Locate.Static
import ImportContext.Proofs.Fallible
import ImportContext.Proofs.Source.Spans

/-!
# Excerpts of module files

A location with source shows consecutive lines of one file. Line numbers are words of 64 bits; a
text that was read has fewer bytes, and so fewer lines, than such a word can count, hence no line
number wraps.

Results:
* `SymbolLocation.withSource_shows`: lines cut out of a file are described by their numbers.
* `ReadModule.definition?_isSome_iff`: every name bound at the top level has a location.
* `ReadModule.describesDefinition`: what the location of a definition says.
* `moduleLocation_hasSource`: what the location of a whole module says if it has source.
-/

namespace ImportContext

open Source (Statement LineSpan LineOf)

/-! ## Lines of a file -/

/-- The lines of a file from number `first` to number `last`, both included. -/
def linesBetween (lines : List String) (first last : Nat) : List String :=
  (lines.take last).drop (first - 1)

theorem length_linesBetween {lines : List String} {last : Nat} (first : Nat)
    (h : last ≤ lines.length) :
    (linesBetween lines first last).length = last - (first - 1) := by
  simp only [linesBetween, List.length_drop, List.length_take]
  omega

/-- A text that was read is no larger than a text can be. -/
theorem FileSystem.utf8ByteSize_readText_le {fs : FileSystem} {p : Path} {s : String}
    (h : fs.readText p = .ok s) : s.utf8ByteSize ≤ maxTextSize := by
  obtain ⟨bytes, -, h⟩ := bind_eq_ok_iff.mp h
  split at h
  · cases h
  · next hsize =>
    split at h
    · next s' hs =>
      cases h
      unfold String.fromUTF8? at hs
      split at hs
      · cases hs
        exact Nat.le_of_not_lt hsize
      · cases hs
    · cases h

/-- The lines of a text that was read can be counted in a word. -/
theorem Host.length_splitLines_lt {host : Host} {p : Path} {s : String}
    (h : host.readText p = .ok s) : (Text.splitLines s).length < UInt64.size := by
  have hlines := Text.length_splitLines_le s
  have hbytes := FileSystem.utf8ByteSize_readText_le h
  have hmax : FileSystem.maxTextSize < UInt64.size := by decide
  omega

namespace SymbolLocation

/-- The location shows the lines from number `first` to number `last` of a file, which has at
least `last` lines. -/
structure Shows (host : Host) (l : SymbolLocation) (file : Path) (first last : Nat) : Prop where
  file_eq : l.file = some file
  start_pos : 1 ≤ first
  start_le_end : first ≤ last
  startLine_eq : l.startLine.map UInt64.toNat = some first
  endLine_eq : l.endLine.map UInt64.toNat = some last
  text_eq : ∃ text, host.readText file = .ok text ∧ last ≤ (Text.splitLines text).length ∧
    l.sourceText = some (String.join (linesBetween (Text.splitLines text) first last))

theorem Shows.hasSource {host : Host} {l : SymbolLocation} {file : Path} {first last : Nat}
    (h : Shows host l file first last) : l.hasSource = true := by
  obtain ⟨text, -, -, htext⟩ := h.text_eq
  obtain ⟨e, he, -⟩ := Option.map_eq_some_iff.mp htext
  simp [SymbolLocation.hasSource, he]

/-- Lines cut out of a file that was read are described by their numbers. -/
theorem withSource_shows {host : Host} {file : Path} {text : String} {first last : Nat}
    (hread : host.readText file = .ok text) (hfirst : 1 ≤ first) (hle : first ≤ last)
    (hlast : last ≤ (Text.splitLines text).length) (representation qualifiedName : Option String) :
    Shows host
      { withSource file (UInt64.ofNat first) (linesBetween (Text.splitLines text) first last) with
        representation, qualifiedName } file first last := by
  have hcount : (Text.splitLines text).length < 18446744073709551616 :=
    Host.length_splitLines_lt hread
  have hnumber : (UInt64.ofNat first).toNat = first := by
    rw [UInt64.toNat_ofNat']
    exact Nat.mod_eq_of_lt (by omega)
  have hne : UInt64.ofNat first ≠ 0 := by
    intro h0
    rw [h0] at hnumber
    simp at hnumber
    omega
  have hlength := length_linesBetween first hlast
  refine ⟨rfl, hfirst, hle, ?_, ?_, text, hread, hlast, rfl⟩
  · simp [withSource, startLine, hne, hnumber]
  · have hlast' : (UInt64.ofNat (last - (first - 1) - 1)).toNat = last - first := by
      rw [UInt64.toNat_ofNat', Nat.mod_eq_of_lt (by omega)]
      omega
    simp only [withSource, endLine, Excerpt.endLine, hne, hlength, Option.map_some, ite_false]
    rw [UInt64.toNat_add, hnumber, hlast', Nat.mod_eq_of_lt (by omega)]
    congr 1
    omega

end SymbolLocation

/-- A statement that binds a name begins where its lines begin. -/
theorem Source.Statement.Placed.binding {cs : List Char} {s : Statement} (h : s.Placed cs)
    {n : String} {kind : BindingKind} {span : LineSpan} (hb : s.binding? n = some (kind, span)) :
    LineOf cs span.first := by
  unfold Statement.binding? at hb
  split at hb
  · split at hb <;> cases hb
    exact h
  · split at hb <;> cases hb
    exact h
  · split at hb <;> cases hb
    exact h
  · cases hb

/-! ## Modules that were read -/

/-- The file of a module, found on a search path, read and parsed. -/
structure ReadModule (layout : PackageLayout) (host : Host) (roots : SearchPath)
    (m : ModuleIdentity) where
  file : ModuleFile
  path : Path
  text : String
  body : List Statement
  found : layout.findModule host roots m = some file
  code : file.code? = some path
  read : host.readText path = .ok text
  parsed : parseSource text = .ok body

theorem StaticModule.load_eq_ok_iff {host : Host} {m : ModuleIdentity} {path : Path}
    {s : StaticModule} :
    load host m path = .ok s ↔ ∃ text body, host.readText path = .ok text ∧
      parseSource text = .ok body ∧ s = ⟨path, Text.splitLines text, body⟩ := by
  unfold load
  cases hread : host.readText path with
  | error e => simp
  | ok text =>
    cases hparse : parseSource text with
    | error e => simp [hparse]
    | ok body => simp [hparse, eq_comm]

namespace ReadModule

variable {layout : PackageLayout} {host : Host} {roots : SearchPath} {m : ModuleIdentity}

/-- What the search for names works on. -/
def source (r : ReadModule layout host roots m) : StaticModule :=
  ⟨r.path, Text.splitLines r.text, r.body⟩

theorem load_eq (r : ReadModule layout host roots m) :
    StaticModule.load host m r.path = .ok r.source :=
  StaticModule.load_eq_ok_iff.mpr ⟨r.text, r.body, r.read, r.parsed, rfl⟩

/-- A module has one file, one text and one parse. -/
theorem unique (r r' : ReadModule layout host roots m) : r = r' := by
  obtain ⟨file, path, text, body, hfound, hcode, hread, hparsed⟩ := r
  obtain ⟨file', path', text', body', hfound', hcode', hread', hparsed'⟩ := r'
  cases Option.some.inj (hfound.symm.trans hfound')
  cases Option.some.inj (hcode.symm.trans hcode')
  cases Except.ok.inj (hread.symm.trans hread')
  cases Except.ok.inj (hparsed.symm.trans hparsed')
  rfl

/-- Some statement at the top level of the module binds the name. -/
def Defines (r : ReadModule layout host roots m) (n : String) : Prop :=
  ∃ s ∈ r.body, ∃ b, s.binding? n = some b

/-- The statement is the last one at the top level that binds the name. -/
structure LastBinding (r : ReadModule layout host roots m) (n : String) (s : Statement)
    (kind : BindingKind) (span : LineSpan) : Prop where
  binds : s.binding? n = some (kind, span)
  last : ∃ before after, r.body = before ++ s :: after ∧ ∀ t ∈ after, t.binding? n = none

theorem lastBinding_of_binding? (r : ReadModule layout host roots m) {n : String}
    {kind : BindingKind} {span : LineSpan} (h : r.source.binding? n = some (kind, span)) :
    ∃ s, r.LastBinding n s kind span := by
  unfold StaticModule.binding? at h
  rw [List.getLast?_eq_head?_reverse, ← List.filterMap_reverse, List.head?_filterMap,
    List.findSome?_eq_some_iff] at h
  obtain ⟨after, s, before, hbody, hbinds, hafter⟩ := h
  refine ⟨s, hbinds, before.reverse, after.reverse, ?_, ?_⟩
  · have hbody' := congrArg List.reverse hbody
    simpa [source] using hbody'
  · intro t ht
    exact hafter t (List.mem_reverse.mp ht)

theorem binding?_isSome (r : ReadModule layout host roots m) {n : String} (h : r.Defines n) :
    ∃ kind span, r.source.binding? n = some (kind, span) := by
  obtain ⟨s, hs, b, hb⟩ := h
  have hmem : b ∈ r.body.filterMap (·.binding? n) := List.mem_filterMap.mpr ⟨s, hs, hb⟩
  cases hlast : (r.body.filterMap (·.binding? n)).getLast? with
  | none => rw [List.getLast?_eq_none_iff.mp hlast] at hmem; cases hmem
  | some b' => exact ⟨b'.1, b'.2, hlast⟩

/-- A statement that binds a name begins on a line of the file. -/
theorem LastBinding.lineOf {r : ReadModule layout host roots m} {n : String} {s : Statement}
    {kind : BindingKind} {span : LineSpan} (h : r.LastBinding n s kind span) :
    1 ≤ span.first ∧ span.first ≤ (Text.splitLines r.text).length := by
  obtain ⟨hbinds, before, after, hbody, -⟩ := h
  have hread : Source.readSource? r.text = some r.body := by
    have hparsed := r.parsed
    unfold parseSource at hparsed
    split at hparsed
    · next body hbody => cases hparsed; exact hbody
    · cases hparsed
  have hplaced := Source.readSource?_placed hread s (by simp [hbody])
  rw [Text.length_splitLines]
  exact hplaced.binding hbinds

/-- The last line that is shown of a statement: its own last line, within the file. -/
def shownLast (r : ReadModule layout host roots m) (span : LineSpan) : Nat :=
  max (min span.last (Text.splitLines r.text).length) span.first

theorem excerpt?_eq (r : ReadModule layout host roots m) {span : LineSpan}
    (h : span.first ≤ (Text.splitLines r.text).length) :
    r.source.excerpt? span =
      some (linesBetween (Text.splitLines r.text) span.first (r.shownLast span)) := by
  have hlast : r.shownLast span ≤ (Text.splitLines r.text).length := by
    unfold shownLast
    omega
  unfold StaticModule.excerpt? linesBetween
  rw [List.drop_take]
  exact if_pos hlast

/-- What the location of a definition says: the lines of the last statement that binds the name,
and the name behind that of the module. -/
structure DescribesDefinition (r : ReadModule layout host roots m) (n : String)
    (l : SymbolLocation) : Prop where
  shows : ∃ s kind span, r.LastBinding n s kind span ∧
    l.Shows host r.path span.first (r.shownLast span)
  qualifiedName_eq : l.qualifiedName = some (m.join n).text

theorem describesDefinition (r : ReadModule layout host roots m) {n : String} {l : SymbolLocation}
    (h : r.source.definition? m n = some l) : r.DescribesDefinition n l := by
  unfold StaticModule.definition? at h
  obtain ⟨⟨kind, span⟩, hbinding, h⟩ := Option.bind_eq_some_iff.mp h
  obtain ⟨s, hs⟩ := r.lastBinding_of_binding? hbinding
  obtain ⟨hpos, hle⟩ := hs.lineOf
  dsimp only at h
  rw [r.excerpt?_eq hle] at h
  cases h
  refine ⟨⟨s, kind, span, hs, ?_⟩, rfl⟩
  exact SymbolLocation.withSource_shows r.read hpos (by unfold shownLast; omega)
    (by unfold shownLast; omega) _ _

/-- Every name that is bound at the top level has a location, and no other. -/
theorem definition?_isSome_iff (r : ReadModule layout host roots m) {n : String} :
    (∃ l, r.source.definition? m n = some l) ↔ r.Defines n := by
  constructor
  · rintro ⟨l, h⟩
    obtain ⟨s, kind, span, hs, -⟩ := (r.describesDefinition h).shows
    obtain ⟨before, after, hbody, -⟩ := hs.last
    exact ⟨s, by simp [hbody], (kind, span), hs.binds⟩
  · intro h
    obtain ⟨kind, span, hbinding⟩ := r.binding?_isSome h
    obtain ⟨s, hs⟩ := r.lastBinding_of_binding? hbinding
    unfold StaticModule.definition?
    rw [hbinding]
    simp only [Option.bind_eq_bind, Option.bind_some]
    rw [r.excerpt?_eq hs.lineOf.2]
    exact ⟨_, rfl⟩

/-! ## Whole modules -/

/-- What the location of a whole module with a text says: all its lines, and its name. -/
structure DescribesModule (r : ReadModule layout host roots m) (l : SymbolLocation) : Prop where
  shows : l.Shows host r.path 1 (Text.splitLines r.text).length
  qualifiedName_eq : l.qualifiedName = some m.text

end ReadModule

theorem ModuleFile.path_of_code? {found : ModuleFile} {path : Path}
    (h : found.code? = some path) : found.path = path := by
  cases found <;> cases h <;> rfl

/-- The location of a module that is found always has a file. -/
theorem moduleLocation_file {host : Host} {m : ModuleIdentity} {found : ModuleFile}
    {l : SymbolLocation} (h : moduleLocation host m found = .ok l) : l.file = some found.path := by
  unfold moduleLocation at h
  split at h
  · next path hcode =>
    obtain ⟨s, hload, h⟩ := bind_eq_ok_iff.mp h
    cases h
    rw [ModuleFile.path_of_code? hcode]
    dsimp only
    split <;> rfl
  · cases h; rfl

/-- The location of a whole module that was read has source unless its file is empty. -/
theorem ReadModule.moduleLocation_eq_ok {layout : PackageLayout} {host : Host} {roots : SearchPath}
    {m : ModuleIdentity} (r : ReadModule layout host roots m) :
    ∃ l, moduleLocation host m r.file = .ok l ∧ (l.hasSource = true ↔ r.text ≠ "") ∧
      (r.text ≠ "" → r.DescribesModule l) := by
  have hall : linesBetween (Text.splitLines r.text) 1 (Text.splitLines r.text).length =
      Text.splitLines r.text := by
    simp [linesBetween]
  unfold moduleLocation
  rw [r.code]
  simp only [r.load_eq, bind, Except.bind]
  refine ⟨_, rfl, ?_, ?_⟩
  · by_cases hempty : r.text = ""
    · have hlines := Text.splitLines_eq_nil_iff.mpr hempty
      refine ⟨fun h => ?_, fun h => absurd hempty h⟩
      simp [source, hlines, SymbolLocation.hasSource, SymbolLocation.fileOnly] at h
    · have hlines : (Text.splitLines r.text).isEmpty = false := by
        simpa [Text.splitLines_eq_nil_iff] using hempty
      simp [source, hlines, hempty, SymbolLocation.hasSource, SymbolLocation.withSource]
  · intro hne
    have hlines : (Text.splitLines r.text).isEmpty = false := by
      simpa [Text.splitLines_eq_nil_iff] using hne
    have hcount : 1 ≤ (Text.splitLines r.text).length := by
      rw [Nat.one_le_iff_ne_zero, ne_eq, List.length_eq_zero_iff, Text.splitLines_eq_nil_iff]
      exact hne
    refine ⟨?_, rfl⟩
    have hshows := SymbolLocation.withSource_shows r.read (Nat.le_refl 1) hcount (Nat.le_refl _)
      (some ("<module '" ++ m.text ++ "' from '" ++ r.path.text ++ "'>")) (some m.text)
    rw [hall] at hshows
    simpa [source, hlines] using hshows

/-- A whole module whose location has source was read, and is described as a whole. -/
theorem moduleLocation_hasSource {layout : PackageLayout} {host : Host} {roots : SearchPath}
    {m : ModuleIdentity} {found : ModuleFile} {l : SymbolLocation}
    (hfound : layout.findModule host roots m = some found)
    (h : moduleLocation host m found = .ok l) (hs : l.hasSource = true) :
    ∃ r : ReadModule layout host roots m, r.file = found ∧ r.text ≠ "" ∧ r.DescribesModule l := by
  cases hcode : found.code? with
  | none =>
    unfold moduleLocation at h
    rw [hcode] at h
    cases h
    cases hs
  | some path =>
    have hload : ∃ s, StaticModule.load host m path = .ok s := by
      unfold moduleLocation at h
      rw [hcode] at h
      obtain ⟨s, hload, -⟩ := bind_eq_ok_iff.mp h
      exact ⟨s, hload⟩
    obtain ⟨s, hload⟩ := hload
    obtain ⟨text, body, hread, hparsed, -⟩ := StaticModule.load_eq_ok_iff.mp hload
    let r : ReadModule layout host roots m :=
      ⟨found, path, text, body, hfound, hcode, hread, hparsed⟩
    obtain ⟨l', hl', hsource, hdescribes⟩ := r.moduleLocation_eq_ok
    have hl : l' = l := Except.ok.inj (hl'.symm.trans h)
    subst hl
    have hne := hsource.mp hs
    exact ⟨r, rfl, hne, hdescribes hne⟩

end ImportContext
