import ImportContext.Locate.Probe
import ImportContext.Proofs.Locate.Soundness

/-!
# Line numbers of locations

A location tells of lines with their text and the numbers of the first and the last, or not at
all. The numbers are words of 64 bits. Those that are read off a file never wrap. An interpreter
may number the first line as it likes; the number of the last one wraps exactly if it is too large
for a word.

Results:
* `locateStatic_captures`: what is located in source text counts its lines right.
* `ProbeReport.captures_iff`: the reports whose last line is numbered right.
* `locations_captured`: both ways to locate a symbol.
* `probed_lines_wrap`: a report whose lines end before they begin.
-/

namespace ImportContext

namespace SymbolLocation

/-- Nothing is said of lines. -/
structure WithoutLines (l : SymbolLocation) : Prop where
  startLine_eq : l.startLine = none
  endLine_eq : l.endLine = none
  sourceText_eq : l.sourceText = none

/-- The location tells of lines of a file, one or more, the first of them numbered `start`. The
number of the last one is as large as their count makes it. -/
structure Captures (l : SymbolLocation) (start : Nat) (lines : List String) : Prop where
  exists_file : ∃ file, l.file = some file
  lines_ne_nil : lines ≠ []
  start_pos : 1 ≤ start
  startLine_eq : l.startLine.map UInt64.toNat = some start
  endLine_eq : l.endLine.map UInt64.toNat = some (start + lines.length - 1)
  sourceText_eq : l.sourceText = some (String.join lines)

theorem withoutLines_of_excerpt {l : SymbolLocation} (h : l.excerpt = none) : l.WithoutLines := by
  constructor <;> simp [startLine, endLine, sourceText, h]

/-- Lines that are shown are captured. -/
theorem Shows.captures {host : Host} {l : SymbolLocation} {file : Path} {first last : Nat}
    (h : l.Shows host file first last) :
    ∃ text, host.readText file = .ok text ∧
      l.Captures first (linesBetween (Text.splitLines text) first last) := by
  obtain ⟨text, hread, hlast, htext⟩ := h.text_eq
  have hpos := h.start_pos
  have hle := h.start_le_end
  have hlength := length_linesBetween first hlast
  refine ⟨text, hread, ⟨file, h.file_eq⟩, ?_, hpos, h.startLine_eq, ?_, htext⟩
  · intro hnil
    rw [hnil, List.length_nil] at hlength
    omega
  · rw [h.endLine_eq, hlength]
    congr 1
    omega

end SymbolLocation

/-! ## Source text -/

section
variable {layout : PackageLayout} {host : Host} {roots : SearchPath} {r : ResolvedImport}
  {l : SymbolLocation}

/-- What is located in source text shows lines of a file if it has source at all. -/
theorem locateStatic_shows (h : locateStatic layout host roots r = .ok l)
    (hs : l.hasSource = true) : ∃ file first last, l.Shows host file first last := by
  obtain ⟨m, symbol⟩ := r
  cases symbol with
  | none =>
    change locateModule layout host roots m = .ok l at h
    unfold locateModule at h
    split at h
    · next found hfound =>
      obtain ⟨r, -, -, hdescribes⟩ := moduleLocation_hasSource hfound h hs
      exact ⟨_, _, _, hdescribes.shows⟩
    · cases h
      cases hs
  | some n =>
    by_cases hn : n = "*"
    · rw [hn, locateStatic_wildcard] at h
      split at h <;> cases h <;> cases hs
    · have hcommitted := (locateStatic_hasSource_iff hn).mp ⟨h, hs⟩
      obtain ⟨rest, last, -, -, -, hdescribes⟩ := hcommitted.chain
      exact hdescribes.shows

/-- What is located in source text says nothing of lines, or has captured lines of a file. -/
theorem locateStatic_captures (h : locateStatic layout host roots r = .ok l) :
    l.WithoutLines ∨ ∃ file text first last, host.readText file = .ok text ∧
      l.file = some file ∧ l.Captures first (linesBetween (Text.splitLines text) first last) := by
  cases hexcerpt : l.excerpt with
  | none => exact .inl (SymbolLocation.withoutLines_of_excerpt hexcerpt)
  | some e =>
    have hs : l.hasSource = true := by
      simp [SymbolLocation.hasSource, hexcerpt]
    obtain ⟨file, first, last, hshows⟩ := locateStatic_shows h hs
    obtain ⟨text, hread, hcaptures⟩ := hshows.captures
    exact .inr ⟨file, text, first, last, hread, hshows.file_eq, hcaptures⟩

end

/-! ## Reports of an interpreter -/

namespace ProbeReport

/-- The lines that a report captures, with their file and the number of the first. Lines without
any of these count for nothing, and no lines do neither. -/
def captured? : ProbeReport → Option (Path × UInt64 × List String)
  | found (some file) (some start) (some (line :: rest)) _ _ => some (file, start, line :: rest)
  | _ => none

variable {report : ProbeReport} {module : ModuleIdentity} {l : SymbolLocation}

/-- A location has the lines that the report captures. A first line numbered 0 counts as line 1. -/
theorem excerpt_of_location (h : report.location module = .ok l) :
    l.excerpt = report.captured?.map fun (_, start, lines) =>
      ⟨if start = 0 then 1 else start, lines⟩ := by
  cases report with
  | found file start lines representation qualifiedName =>
    cases h
    cases file with
    | none => rfl
    | some file =>
      cases start with
      | none => rfl
      | some start => rcases lines with - | - | ⟨line, rest⟩ <;> rfl
  | missing message =>
    cases h
    rfl
  | failed message => cases h

/-- The number of the first line, as words have it. -/
theorem toNat_first (start : UInt64) :
    (if start = 0 then 1 else start).toNat = max start.toNat 1 := by
  by_cases hzero : start = 0
  · rw [hzero]
    rfl
  · have hpos : start.toNat ≠ 0 := by
      intro h
      exact hzero (UInt64.toNat.inj h)
    rw [if_neg hzero]
    omega

/-- The number of the last of `count` lines, as a sum of words has it. -/
theorem toNat_last (first : UInt64) {count : Nat} (hcount : count ≠ 0) :
    (first + UInt64.ofNat (count - 1)).toNat = (first.toNat + count - 1) % UInt64.size := by
  rw [UInt64.toNat_add, UInt64.toNat_ofNat', Nat.add_mod_mod]
  congr 1
  omega

/-- What the location of a report says of the lines that are captured. -/
theorem location_of_captured? {file : Path} {start : UInt64} {lines : List String}
    (h : report.location module = .ok l) (hsome : report.captured? = some (file, start, lines)) :
    lines ≠ [] ∧ l.file = some file ∧ l.sourceText = some (String.join lines) ∧
      l.startLine.map UInt64.toNat = some (max start.toNat 1) ∧
      l.endLine.map UInt64.toNat = some ((max start.toNat 1 + lines.length - 1) % UInt64.size) := by
  obtain ⟨hne, hfile⟩ : lines ≠ [] ∧ l.file = some file := by
    unfold captured? at hsome
    split at hsome
    · cases hsome
      cases h
      exact ⟨List.cons_ne_nil _ _, rfl⟩
    · cases hsome
  have hcount : lines.length ≠ 0 := mt List.length_eq_zero_iff.mp hne
  have hexcerpt := excerpt_of_location h
  rw [hsome, Option.map_some] at hexcerpt
  refine ⟨hne, hfile, ?_, ?_, ?_⟩
  · rw [SymbolLocation.sourceText, hexcerpt]
    rfl
  · rw [SymbolLocation.startLine, hexcerpt]
    exact congrArg some (toNat_first start)
  · rw [SymbolLocation.endLine, hexcerpt, ← toNat_first start]
    exact congrArg some (toNat_last _ hcount)

/-- The lines of a report are counted right exactly if the number of the last one fits into a
word. -/
theorem captures_iff {file : Path} {start : UInt64} {lines : List String}
    (h : report.location module = .ok l) (hsome : report.captured? = some (file, start, lines)) :
    l.Captures (max start.toNat 1) lines ↔ max start.toNat 1 + lines.length - 1 < UInt64.size := by
  obtain ⟨hne, hfile, htext, hstart, hend⟩ := location_of_captured? h hsome
  constructor
  · intro hcaptures
    have hlast := hcaptures.endLine_eq.symm.trans hend
    exact (Nat.mod_eq_iff_lt (by decide)).mp (Option.some.inj hlast).symm
  · intro hfits
    rw [Nat.mod_eq_of_lt hfits] at hend
    exact ⟨⟨file, hfile⟩, hne, le_max_right _ _, hstart, hend, htext⟩

end ProbeReport

/-! ## Both ways -/

/-- What is located in source text says nothing of lines, or shows lines of a file and counts them
right. What an interpreter reports says nothing of lines unless it names a file, a first line and
at least one line; then it has their file and text, begins at line 1 or later, and counts them right
exactly if the number of the last one fits into 64 bits. -/
theorem locations_captured (layout : PackageLayout) (host : Host) (roots : SearchPath)
    (r : ResolvedImport) (report : ProbeReport) (module : ModuleIdentity) :
    (∀ l, locateStatic layout host roots r = .ok l →
      l.WithoutLines ∨ ∃ file text first last, host.readText file = .ok text ∧
        l.file = some file ∧ l.Captures first (linesBetween (Text.splitLines text) first last)) ∧
    ∀ l, ProbeReport.location module report = .ok l →
      (report.captured? = none → l.WithoutLines) ∧
      ∀ file start lines, report.captured? = some (file, start, lines) →
        (lines ≠ [] ∧ l.file = some file ∧ l.sourceText = some (String.join lines) ∧
          l.startLine.map UInt64.toNat = some (max start.toNat 1) ∧
          l.endLine.map UInt64.toNat = some ((max start.toNat 1 + lines.length - 1) % UInt64.size)) ∧
        (l.Captures (max start.toNat 1) lines ↔
          max start.toNat 1 + lines.length - 1 < UInt64.size) := by
  refine ⟨fun l h => locateStatic_captures h, fun l h => ⟨?_, ?_⟩⟩
  · intro hnone
    apply SymbolLocation.withoutLines_of_excerpt
    rw [ProbeReport.excerpt_of_location h, hnone]
    rfl
  · intro file start lines hsome
    exact ⟨ProbeReport.location_of_captured? h hsome, ProbeReport.captures_iff h hsome⟩

/-- A report on two lines of a file, the first of them with the given number. -/
def twoLinesFrom (start : UInt64) : ProbeReport :=
  .found (some ⟨"/x/m.py"⟩) (some start) (some ["def f():\n", "    pass\n"]) "<function f>" "m.f"

/-- Lines of a file that was read, and lines up to the last one that a word can number. -/
theorem locations_captured_edge :
    (∃ file text first last, renamingHost.readText file = .ok text ∧
      renamedRun.file = some file ∧
      renamedRun.Captures first (linesBetween (Text.splitLines text) first last)) ∧
    ∃ l, (twoLinesFrom 18446744073709551614).location ⟨["m"]⟩ = .ok l ∧
      l.Captures 18446744073709551614 ["def f():\n", "    pass\n"] := by
  constructor
  · have hstatic := (locations_captured _ _ _ _ (twoLinesFrom 1) ⟨["m"]⟩).1 _
      locateStatic_renamingHost
    refine hstatic.resolve_left fun hwithout => ?_
    cases hwithout.startLine_eq
  · refine ⟨_, rfl, ?_⟩
    have hprobed := (locations_captured {} {} [] ⟨⟨["m"]⟩, none⟩
      (twoLinesFrom 18446744073709551614) ⟨["m"]⟩).2 _ rfl
    have hlines := hprobed.2 _ _ _ rfl
    exact hlines.2.mpr (by decide)

/-- What an interpreter prints for two lines, the first of them with the largest number that a word
can hold. -/
def wrappingReport : String :=
  "\x7b\"status\": \"found\", \"file\": \"/x/m.py\", \"start_line\": 18446744073709551615, " ++
    "\"lines\": [\"def f():\\n\", \"    pass\\n\"], " ++
    "\"representation\": \"<function f>\", \"qualified_name\": \"m.f\"\x7d"

/-- A report that is accepted, and the lines of its location end before they begin: the location
neither captures lines nor says nothing of them. -/
theorem probed_lines_wrap :
    (JsonValue.parse? wrappingReport).bind ProbeReport.ofJson? =
      some (twoLinesFrom 18446744073709551615) ∧
    ∃ l, (twoLinesFrom 18446744073709551615).location ⟨["m"]⟩ = .ok l ∧
      l.startLine = some 18446744073709551615 ∧ l.endLine = some 0 ∧
      ¬ l.WithoutLines ∧ ∀ start lines, ¬ l.Captures start lines := by
  refine ⟨by decide +kernel, _, rfl, rfl, rfl, ?_, ?_⟩
  · intro hwithout
    cases hwithout.startLine_eq
  · intro start lines hcaptures
    have hstart : 18446744073709551615 = start := Option.some.inj hcaptures.startLine_eq
    have hend : 0 = start + lines.length - 1 := Option.some.inj hcaptures.endLine_eq
    omega

end ImportContext
