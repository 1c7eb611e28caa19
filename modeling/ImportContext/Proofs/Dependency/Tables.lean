import Mathlib.Data.List.Forall2
import ImportContext.Dependency.Downloads
import ImportContext.Proofs.Fallible
import ImportContext.Proofs.Text.Number
import ImportContext.Proofs.Text.Trimming

/-!
# What download tables say

A table is read row by row: a header line names the columns, and every other line that is not blank
gives a count for a name. Names are compared in normal form, both when they are stored and when
they are asked for, and of several counts for a distribution the last one is in force.

Results:
* `addTable_eq_ok_iff`, `addTables_eq_ok_iff`: what one text and several texts add to a table.
* `addTable_isError_iff`: the texts that are refused.
* `rowFields_written`: fields come back from a row, with or without quotation marks.
* `downloads_of_tables`: what is known and popular after tables were read.
-/

namespace ImportContext

open Text (plainLines splitOnChar trim IsNumber)

/-- A list has a counterpart if each of its items has one. -/
theorem exists_forall₂_iff {α β : Type} {R : α → β → Prop} {xs : List α} :
    (∃ ys, List.Forall₂ R xs ys) ↔ ∀ x ∈ xs, ∃ y, R x y := by
  induction xs with
  | nil => simp
  | cons x xs ih =>
    rw [List.forall_mem_cons, ← ih]
    constructor
    · rintro ⟨ys, h⟩
      obtain ⟨y, rest, hy, hrest, rfl⟩ := List.forall₂_cons_left_iff.mp h
      exact ⟨⟨y, hy⟩, rest, hrest⟩
    · rintro ⟨⟨y, hy⟩, rest, hrest⟩
      exact ⟨y :: rest, .cons hy hrest⟩

/-! ## Texts of tables -/

/-- The lines of a table that are not blank. -/
def tableLines (text : String) : List String :=
  (plainLines text).filter fun line => trim line != ""

/-- The names of the columns. -/
def columnNames (header : String) : List String :=
  (splitOnChar ',' header).map trim

/-- A row gives a count for a name, in the columns of the given numbers. -/
structure RowSays (nameColumn countColumn : Nat) (row : String) (entry : String × Nat) : Prop where
  name_eq : (DownloadTable.rowFields row)[nameColumn]? = some entry.1
  exists_count : ∃ count, (DownloadTable.rowFields row)[countColumn]? = some count ∧
    IsNumber count entry.2

/-- A text is a table with the given rows, the header apart. Of several columns of one name the
first counts. -/
inductive TableSays (text : String) : List (String × Nat) → Prop
  | blank : tableLines text = [] → TableSays text []
  | rows {header : String} {body : List String} {i j : Nat} {rows : List (String × Nat)} :
      tableLines text = header :: body → (columnNames header).idxOf? "name" = some i →
      (columnNames header).idxOf? "last_month" = some j → List.Forall₂ (RowSays i j) body rows →
      TableSays text rows

/-- A text that is not blank and is no table. -/
inductive Malformed (text : String) : Prop
  | missingColumn {header : String} {body : List String} (column : String) :
      tableLines text = header :: body → column = "name" ∨ column = "last_month" →
      column ∉ columnNames header → Malformed text
  | shortRow {header : String} {body : List String} {i j : Nat} (row : String) :
      tableLines text = header :: body → (columnNames header).idxOf? "name" = some i →
      (columnNames header).idxOf? "last_month" = some j → row ∈ body →
      (DownloadTable.rowFields row).length ≤ max i j → Malformed text
  | invalidCount {header : String} {body : List String} {j : Nat} (row count : String) :
      tableLines text = header :: body → (columnNames header).idxOf? "last_month" = some j →
      row ∈ body → (DownloadTable.rowFields row)[j]? = some count → (∀ n, ¬ IsNumber count n) →
      Malformed text

/-- A row as it is stored, with its name in normal form. -/
def keyed (row : String × Nat) : String × Nat :=
  (normalizeDistribution row.1, row.2)

namespace DownloadTable

theorem readRow_eq_ok_iff {columns i j line : Nat} {row : String} {entry : String × Nat} :
    readRow columns i j line row = .ok entry ↔ ∃ r, RowSays i j row r ∧ keyed r = entry := by
  unfold readRow
  constructor
  · intro h
    dsimp only at h
    split at h
    · next name count hname hcount =>
      split at h
      · next n hn =>
        cases h
        exact ⟨(name, n), ⟨hname, count, hcount, Text.parseNumber_eq_ok_iff.mp hn⟩, rfl⟩
      · cases h
    · cases h
  · rintro ⟨⟨name, n⟩, ⟨hname, count, hcount, hn⟩, rfl⟩
    simp only [hname, hcount, Text.parseNumber_eq_ok_iff.mpr hn]
    rfl

theorem readRows_eq_ok_iff {columns i j : Nat} {rows : List (String × Nat)}
    {entries : List (String × Nat)} :
    rows.mapM (fun (row, line) => readRow columns i j (line + 1) row) = .ok entries ↔
      ∃ rs, List.Forall₂ (RowSays i j) (rows.map Prod.fst) rs ∧ rs.map keyed = entries := by
  induction rows generalizing entries with
  | nil => simp [pure, Except.pure]
  | cons row rows ih =>
    rw [List.mapM_cons, bind_eq_ok_iff, List.map_cons]
    constructor
    · rintro ⟨entry, hrow, h⟩
      obtain ⟨rest, hrest, h⟩ := bind_eq_ok_iff.mp h
      cases h
      obtain ⟨r, hr, rfl⟩ := readRow_eq_ok_iff.mp hrow
      obtain ⟨rs, hrs, rfl⟩ := ih.mp hrest
      exact ⟨r :: rs, .cons hr hrs, rfl⟩
    · rintro ⟨rs, hrs, rfl⟩
      obtain ⟨r, rs, hr, hrest, rfl⟩ := List.forall₂_cons_left_iff.mp hrs
      refine ⟨keyed r, readRow_eq_ok_iff.mpr ⟨r, hr, rfl⟩, ?_⟩
      exact bind_eq_ok_iff.mpr ⟨rs.map keyed, ih.mpr ⟨rs, hrest, rfl⟩, rfl⟩

theorem findColumn_eq_ok_iff {columns : List String} {name : String} {i : Nat} :
    findColumn columns name = .ok i ↔ columns.idxOf? name = some i := by
  unfold findColumn List.idxOf?
  split
  · next k hk => simp [hk]
  · next hk => simp [hk]

/-- The lines that are read are those that are not blank, each with its number in the text. -/
theorem exists_numbered (text : String) : ∃ numbered : List (String × Nat),
    (plainLines text).zipIdx.filter (fun (line, _) => trim line != "") = numbered ∧
      numbered.map Prod.fst = tableLines text := by
  refine ⟨_, rfl, ?_⟩
  have hlines : (plainLines text).zipIdx.map Prod.fst = plainLines text :=
    List.zipIdx_map_fst 0 (plainLines text)
  rw [tableLines]
  conv_rhs => rw [← hlines, List.filter_map]
  rfl

theorem readTable_eq_ok_iff {text : String} {entries : List (String × Nat)} :
    readTable text = .ok entries ↔ ∃ rows, TableSays text rows ∧ rows.map keyed = entries := by
  obtain ⟨numbered, hnumbered, hlines⟩ := exists_numbered text
  unfold readTable
  rw [hnumbered]
  cases numbered with
  | nil =>
    constructor
    · rintro ⟨⟩
      exact ⟨[], .blank hlines.symm, rfl⟩
    · rintro ⟨rows, htable, rfl⟩
      cases htable with
      | blank => rfl
      | rows hbody => cases hlines.trans hbody
  | cons line rows =>
    obtain ⟨header, number⟩ := line
    rw [List.map_cons] at hlines
    simp only [bind_eq_ok_iff, findColumn_eq_ok_iff, readRows_eq_ok_iff]
    constructor
    · rintro ⟨i, hi, j, hj, rs, hrs, rfl⟩
      exact ⟨rs, .rows hlines.symm hi hj hrs, rfl⟩
    · rintro ⟨rs, htable, rfl⟩
      cases htable with
      | blank hblank => cases hlines.trans hblank
      | rows hbody hi hj hrs =>
        cases hlines.trans hbody
        exact ⟨_, hi, _, hj, rs, hrs, rfl⟩

/-! ## What a table takes from texts -/

/-- The table with the rows of several texts added, one text after the other. -/
def addTables (t : DownloadTable) (texts : List String) : Except TableError DownloadTable :=
  texts.foldlM addTable t

/-- The table with rows added, later ones being in force. -/
def withRows (t : DownloadTable) (rows : List (String × Nat)) : DownloadTable :=
  { t with counts := (rows.map keyed).reverse ++ t.counts }

theorem withRows_withRows (t : DownloadTable) (rows more : List (String × Nat)) :
    (t.withRows rows).withRows more = t.withRows (rows ++ more) := by
  simp [withRows]

/-- A text that is a table adds its rows; no other text adds anything. -/
theorem addTable_eq_ok_iff {t u : DownloadTable} {text : String} :
    t.addTable text = .ok u ↔ ∃ rows, TableSays text rows ∧ t.withRows rows = u := by
  unfold addTable
  rw [bind_eq_ok_iff]
  constructor
  · rintro ⟨entries, hread, h⟩
    obtain ⟨rows, htable, rfl⟩ := readTable_eq_ok_iff.mp hread
    exact ⟨rows, htable, Except.ok.inj h⟩
  · rintro ⟨rows, htable, rfl⟩
    exact ⟨rows.map keyed, readTable_eq_ok_iff.mpr ⟨rows, htable, rfl⟩, rfl⟩

/-- Several texts add their rows in order if each of them is a table. -/
theorem addTables_eq_ok_iff {t u : DownloadTable} {texts : List String} :
    t.addTables texts = .ok u ↔
      ∃ tables, List.Forall₂ TableSays texts tables ∧ t.withRows tables.flatten = u := by
  induction texts generalizing t with
  | nil => simp [addTables, pure, Except.pure, withRows]
  | cons text texts ih =>
    unfold addTables at ih ⊢
    rw [List.foldlM_cons, bind_eq_ok_iff]
    constructor
    · rintro ⟨v, hv, h⟩
      obtain ⟨rows, htable, rfl⟩ := addTable_eq_ok_iff.mp hv
      obtain ⟨tables, htables, rfl⟩ := ih.mp h
      exact ⟨rows :: tables, .cons htable htables, (withRows_withRows _ _ _).symm⟩
    · rintro ⟨tables, htables, rfl⟩
      obtain ⟨rows, rest, htable, hrest, rfl⟩ := List.forall₂_cons_left_iff.mp htables
      refine ⟨t.withRows rows, addTable_eq_ok_iff.mpr ⟨rows, htable, rfl⟩, ?_⟩
      exact ih.mpr ⟨rest, hrest, withRows_withRows _ _ _⟩

end DownloadTable

/-! ## Texts that are refused -/

/-- A row gives a count for a name unless it is too short or its count is no number. -/
theorem RowSays.exists_iff {i j : Nat} {row : String} :
    (∃ r, RowSays i j row r) ↔ max i j < (DownloadTable.rowFields row).length ∧
      ∀ count, (DownloadTable.rowFields row)[j]? = some count → ∃ n, IsNumber count n := by
  constructor
  · rintro ⟨r, hname, count, hcount, hn⟩
    obtain ⟨hi, -⟩ := List.getElem?_eq_some_iff.mp hname
    obtain ⟨hj, -⟩ := List.getElem?_eq_some_iff.mp hcount
    refine ⟨Nat.max_lt.mpr ⟨hi, hj⟩, fun count' hcount' => ?_⟩
    cases hcount.symm.trans hcount'
    exact ⟨r.2, hn⟩
  · rintro ⟨hlength, hnumber⟩
    obtain ⟨hi, hj⟩ := Nat.max_lt.mp hlength
    have hname := List.getElem?_eq_getElem hi
    have hcount := List.getElem?_eq_getElem hj
    obtain ⟨n, hn⟩ := hnumber _ hcount
    exact ⟨(_, n), hname, _, hcount, hn⟩

/-- A text is a table or malformed. -/
theorem exists_tableSays_or_malformed (text : String) :
    (∃ rows, TableSays text rows) ∨ Malformed text := by
  cases hlines : tableLines text with
  | nil => exact .inl ⟨[], .blank hlines⟩
  | cons header body =>
    cases hi : (columnNames header).idxOf? "name" with
    | none =>
      exact .inr (.missingColumn "name" hlines (.inl rfl) (List.idxOf?_eq_none_iff.mp hi))
    | some i =>
      cases hj : (columnNames header).idxOf? "last_month" with
      | none =>
        exact .inr (.missingColumn "last_month" hlines (.inr rfl) (List.idxOf?_eq_none_iff.mp hj))
      | some j =>
        by_cases hrows : ∀ row ∈ body, ∃ r, RowSays i j row r
        · obtain ⟨rs, hrs⟩ := exists_forall₂_iff.mpr hrows
          exact .inl ⟨rs, .rows hlines hi hj hrs⟩
        · simp only [not_forall] at hrows
          obtain ⟨row, hrow, hbad⟩ := hrows
          rw [RowSays.exists_iff, not_and] at hbad
          by_cases hlength : max i j < (DownloadTable.rowFields row).length
          · have hnumber := hbad hlength
            simp only [not_forall, not_exists] at hnumber
            obtain ⟨count, hcount, hnumber⟩ := hnumber
            exact .inr (.invalidCount row count hlines hj hrow hcount hnumber)
          · exact .inr (.shortRow row hlines hi hj hrow (Nat.le_of_not_lt hlength))

/-- A malformed text is no table. -/
theorem Malformed.not_tableSays {text : String} (h : Malformed text) {rows : List (String × Nat)} :
    ¬ TableSays text rows := by
  intro htable
  cases htable with
  | blank hblank =>
    cases h with
    | missingColumn _ hlines => cases hblank.symm.trans hlines
    | shortRow _ hlines => cases hblank.symm.trans hlines
    | invalidCount _ _ hlines => cases hblank.symm.trans hlines
  | rows hbody hi hj hrs =>
    cases h with
    | missingColumn column hlines hcolumn hmissing =>
      cases hbody.symm.trans hlines
      have hnone := List.idxOf?_eq_none_iff.mpr hmissing
      rcases hcolumn with rfl | rfl
      · cases hi.symm.trans hnone
      · cases hj.symm.trans hnone
    | shortRow row hlines hi' hj' hrow hlength =>
      cases hbody.symm.trans hlines
      cases hi.symm.trans hi'
      cases hj.symm.trans hj'
      have hrow := RowSays.exists_iff.mp (exists_forall₂_iff.mp ⟨_, hrs⟩ row hrow)
      exact absurd hrow.1 (Nat.not_lt_of_le hlength)
    | invalidCount row count hlines hj' hrow hcount hnumber =>
      cases hbody.symm.trans hlines
      cases hj.symm.trans hj'
      have hrow := RowSays.exists_iff.mp (exists_forall₂_iff.mp ⟨_, hrs⟩ row hrow)
      obtain ⟨n, hn⟩ := hrow.2 count hcount
      exact hnumber n hn

namespace DownloadTable

/-- The texts that are refused are those that are malformed. -/
theorem addTable_isError_iff {t : DownloadTable} {text : String} :
    (∃ e, t.addTable text = .error e) ↔ Malformed text := by
  constructor
  · rintro ⟨e, he⟩
    refine (exists_tableSays_or_malformed text).resolve_left ?_
    rintro ⟨rows, htable⟩
    cases he.symm.trans (addTable_eq_ok_iff.mpr ⟨rows, htable, rfl⟩)
  · intro hmalformed
    cases h : t.addTable text with
    | error e => exact ⟨e, rfl⟩
    | ok u =>
      obtain ⟨rows, htable, -⟩ := addTable_eq_ok_iff.mp h
      exact absurd htable hmalformed.not_tableSays

/-- One text that is malformed is enough for all texts to be refused. -/
theorem addTables_isError_iff {t : DownloadTable} {texts : List String} :
    (∃ e, t.addTables texts = .error e) ↔ ∃ text ∈ texts, Malformed text := by
  constructor
  · rintro ⟨e, he⟩
    by_contra hnone
    have hall : ∀ text ∈ texts, ∃ rows, TableSays text rows := by
      intro text htext
      refine (exists_tableSays_or_malformed text).resolve_right fun hmalformed => ?_
      exact hnone ⟨text, htext, hmalformed⟩
    obtain ⟨tables, htables⟩ := exists_forall₂_iff.mpr hall
    cases he.symm.trans (addTables_eq_ok_iff.mpr ⟨tables, htables, rfl⟩)
  · rintro ⟨text, htext, hmalformed⟩
    cases h : t.addTables texts with
    | error e => exact ⟨e, rfl⟩
    | ok u =>
      obtain ⟨tables, htables, -⟩ := addTables_eq_ok_iff.mp h
      obtain ⟨rows, htable⟩ := exists_forall₂_iff.mp ⟨tables, htables⟩ text htext
      exact absurd htable hmalformed.not_tableSays

/-! ## What is known -/

variable {t : DownloadTable} {rows : List (String × Nat)} {d : String}

/-- The last of the rows that are about a distribution gives its count. -/
def LastCount (rows : List (String × Nat)) (d : String) (count : Nat) : Prop :=
  ∃ before name after, rows = before ++ (name, count) :: after ∧
    normalizeDistribution name = normalizeDistribution d ∧
    ∀ row ∈ after, normalizeDistribution row.1 ≠ normalizeDistribution d

/-- The first entry of a distribution among rows in reverse is the last one of the rows. -/
theorem lookup_keyed_eq_some_iff {count : Nat} :
    ((rows.map keyed).reverse).lookup (normalizeDistribution d) = some count ↔
      LastCount rows d count := by
  rw [List.lookup_eq_some_iff]
  constructor
  · rintro ⟨later, earlier, heq, hlater⟩
    have hrows : rows.map keyed =
        earlier.reverse ++ (normalizeDistribution d, count) :: later.reverse := by
      rw [← List.reverse_reverse (rows.map keyed), heq]
      simp
    obtain ⟨before, found, rfl, -, hfound⟩ := List.map_eq_append_iff.mp hrows
    obtain ⟨⟨name, n⟩, after, rfl, hkeyed, hafter⟩ := List.map_eq_cons_iff.mp hfound
    have hname : normalizeDistribution name = normalizeDistribution d := congrArg Prod.fst hkeyed
    have hcount : n = count := congrArg Prod.snd hkeyed
    refine ⟨before, name, after, by rw [hcount], hname, fun row hrow hsame => ?_⟩
    have hmem : keyed row ∈ later := by
      rw [← List.mem_reverse, ← hafter]
      exact List.mem_map_of_mem hrow
    have hne := hlater _ hmem
    simp [keyed, hsame] at hne
  · rintro ⟨before, name, after, rfl, hname, hafter⟩
    refine ⟨(after.map keyed).reverse, (before.map keyed).reverse, ?_, ?_⟩
    · simp [keyed, hname]
    · intro p hp
      obtain ⟨row, hrow, rfl⟩ := List.mem_map.mp (List.mem_reverse.mp hp)
      exact bne_iff_ne.mpr (hafter row hrow).symm

theorem lookup_keyed_isSome_iff :
    (((rows.map keyed).reverse).lookup (normalizeDistribution d)).isSome = true ↔
      ∃ row ∈ rows, normalizeDistribution row.1 = normalizeDistribution d := by
  rw [List.lookup_isSome_iff]
  constructor
  · rintro ⟨p, hp, hsame⟩
    obtain ⟨row, hrow, rfl⟩ := List.mem_map.mp (List.mem_reverse.mp hp)
    exact ⟨row, hrow, (beq_iff_eq.mp hsame).symm⟩
  · rintro ⟨row, hrow, hsame⟩
    refine ⟨keyed row, List.mem_reverse.mpr (List.mem_map_of_mem hrow), ?_⟩
    exact beq_iff_eq.mpr hsame.symm

/-- The distribution is one of those that are popular in any case. -/
def IsNamed (names : List String) (d : String) : Prop :=
  ∃ name ∈ names, normalizeDistribution name = normalizeDistribution d

theorem contains_ofPopular_iff {names : List String} :
    ((ofPopular names).alwaysPopular.contains (normalizeDistribution d)) = true ↔
      IsNamed names d := by
  simp [ofPopular, IsNamed]

theorem knows_withRows_iff {names : List String} :
    ((ofPopular names).withRows rows).knows d = true ↔
      IsNamed names d ∨ ∃ row ∈ rows, normalizeDistribution row.1 = normalizeDistribution d := by
  have hcounts : ((ofPopular names).withRows rows).counts = (rows.map keyed).reverse :=
    List.append_nil _
  rw [knows, Bool.or_eq_true, hcounts, lookup_keyed_isSome_iff]
  exact or_congr_left contains_ofPopular_iff

theorem isPopular_withRows_iff {names : List String} {threshold : Nat} :
    ((ofPopular names).withRows rows).isPopular d threshold = true ↔
      IsNamed names d ∨ ∃ count, LastCount rows d count ∧ threshold ≤ count := by
  have hcounts : ((ofPopular names).withRows rows).counts = (rows.map keyed).reverse :=
    List.append_nil _
  rw [isPopular, Bool.or_eq_true, hcounts]
  refine or_congr contains_ofPopular_iff ?_
  simp [Option.any_eq_true, lookup_keyed_eq_some_iff]

/-! ## Fields of a row -/

/-- A field as it is written in a row: with blanks around it, and inside them with quotation marks
or without. No comma is part of it, and without quotation marks its ends are no blanks. -/
structure IsCell (field cell : String) : Prop where
  no_comma : ',' ∉ field.toList
  ends_unmarked : Text.EndsFree (· == '"') field.toList
  written : ∃ front marks back, cell.toList = front ++ (marks ++ field.toList ++ marks) ++ back ∧
    (∀ c ∈ front, Text.isBlank c = true) ∧ (∀ c ∈ back, Text.isBlank c = true) ∧
    (marks = ['"'] ∨ marks = [] ∧ Text.EndsFree Text.isBlank field.toList)

theorem IsCell.no_comma_cell {field cell : String} (h : IsCell field cell) :
    ',' ∉ cell.toList := by
  obtain ⟨front, marks, back, hcell, hfront, hback, hmarks⟩ := h.written
  have hblank : ∀ cs : List Char, (∀ c ∈ cs, Text.isBlank c = true) → ',' ∉ cs := by
    intro cs hcs hmem
    exact absurd (hcs ',' hmem) (by decide)
  have hmark : ',' ∉ marks := by
    rcases hmarks with rfl | ⟨rfl, -⟩ <;> simp
  rw [hcell]
  simp [hblank front hfront, hblank back hback, hmark, h.no_comma]

theorem IsCell.trim {field cell : String} (h : IsCell field cell) :
    Text.trimWhile (· == '"') (Text.trim cell) = field := by
  obtain ⟨front, marks, back, hcell, hfront, hback, hmarks⟩ := h.written
  have hmark : ∀ c ∈ marks, (c == '"') = true := by
    rcases hmarks with rfl | ⟨rfl, -⟩ <;> simp
  have hends : Text.EndsFree Text.isBlank (marks ++ field.toList ++ marks) := by
    rcases hmarks with rfl | ⟨rfl, hfree⟩
    · have hquote : Text.isBlank '"' = false := by decide
      constructor
      · intro c hc
        cases hc
        exact hquote
      · intro c hc
        rw [List.getLast?_concat] at hc
        cases hc
        exact hquote
    · simpa using hfree
  rw [Text.trim, hcell, Text.dropTailWhile_dropWhile hfront hback hends, Text.trimWhile,
    String.toList_ofList, Text.dropTailWhile_dropWhile hmark hmark h.ends_unmarked,
    String.ofList_toList]

/-- Fields come back from the row in which they are written. -/
theorem rowFields_written {fields cells : List String} (h : List.Forall₂ IsCell fields cells)
    (hne : fields ≠ []) : rowFields (String.intercalate "," cells) = fields := by
  have hcells : cells ≠ [] := by
    rintro rfl
    exact hne (List.forall₂_nil_right_iff.mp h)
  have hcommas : ∀ cell ∈ cells, ',' ∉ cell.toList := by
    intro cell hcell
    obtain ⟨field, hfield⟩ := exists_forall₂_iff.mp ⟨fields, h.flip⟩ cell hcell
    exact IsCell.no_comma_cell hfield
  rw [rowFields, Text.splitOnChar_intercalate rfl hcells hcommas]
  clear hne hcells hcommas
  induction h with
  | nil => rfl
  | cons hcell _ ih => rw [List.map_cons, hcell.trim, ih]

end DownloadTable

/-! ## Everything at once -/

open DownloadTable in
/-- After tables were read, a distribution is known exactly if it is popular in any case or a row is
about it, and popular exactly if it is popular in any case or the last row about it gives a count
that reaches the threshold; the spelling of its name does not matter. Reading fails exactly for
malformed texts, one of which is enough. Quotation marks and blanks around the fields of a row do
not matter. -/
theorem downloads_of_tables (names texts : List String) :
    (∀ t, (ofPopular names).addTables texts = .ok t →
      ∃ tables, List.Forall₂ TableSays texts tables ∧ ∀ d,
        (t.knows d = true ↔ IsNamed names d ∨
          ∃ row ∈ tables.flatten, normalizeDistribution row.1 = normalizeDistribution d) ∧
        (∀ threshold, t.isPopular d threshold = true ↔ IsNamed names d ∨
          ∃ count, LastCount tables.flatten d count ∧ threshold ≤ count) ∧
        ∀ d', normalizeDistribution d' = normalizeDistribution d →
          t.knows d' = t.knows d ∧ ∀ threshold, t.isPopular d' threshold = t.isPopular d threshold) ∧
    (∀ t text, (∃ e, addTable t text = .error e) ↔ Malformed text) ∧
    ((∃ e, (ofPopular names).addTables texts = .error e) ↔ ∃ text ∈ texts, Malformed text) ∧
    ∀ fields cells, List.Forall₂ IsCell fields cells → fields ≠ [] →
      rowFields (String.intercalate "," cells) = fields := by
  refine ⟨fun t ht => ?_, fun t text => addTable_isError_iff, addTables_isError_iff,
    fun fields cells => rowFields_written⟩
  obtain ⟨tables, htables, rfl⟩ := addTables_eq_ok_iff.mp ht
  refine ⟨tables, htables, fun d => ⟨knows_withRows_iff, fun threshold => isPopular_withRows_iff,
    fun d' hd' => ?_⟩⟩
  constructor
  · rw [knows, knows, hd']
  · intro threshold
    rw [isPopular, isPopular, hd']

/-- Two tables with their columns in different orders. The second one gives a lower count for a
distribution of the first, under another spelling. -/
def overridingTables : List String :=
  ["name,last_month\nruamel.yaml, \"5000000\"\n\nniche,10\n",
    "\n last_month , origin, name \n+7,pip, \"Ruamel__YAML\" \n"]

open DownloadTable in
/-- Texts that are read, and a text that is not, because its only row has no count. -/
theorem downloads_of_tables_overriding :
    (∃ t, (ofPopular ["NumPy"]).addTables overridingTables = .ok t ∧
      t.isPopular "RUAMEL-yaml" 7 = true ∧ t.isPopular "RUAMEL-yaml" 8 = false ∧
      t.isPopular "numpy" 8 = true ∧ t.knows "torch" = false ∧
      ∃ tables, List.Forall₂ TableSays overridingTables tables ∧ ∀ d threshold,
        t.isPopular d threshold = true ↔ IsNamed ["NumPy"] d ∨
          ∃ count, LastCount tables.flatten d count ∧ threshold ≤ count) ∧
    Malformed "name,last_month\ntorch\n" := by
  constructor
  · have ht : (ofPopular ["NumPy"]).addTables overridingTables =
        .ok ⟨[("ruamel-yaml", 7), ("niche", 10), ("ruamel-yaml", 5000000)], ["numpy"]⟩ :=
      eq_ok_of_toOption (by decide +kernel)
    obtain ⟨tables, htables, hanswers⟩ := (downloads_of_tables ["NumPy"] overridingTables).1 _ ht
    refine ⟨_, ht, ?_, ?_, ?_, ?_, tables, htables, fun d => (hanswers d).2.1⟩ <;> decide +kernel
  · refine ((downloads_of_tables [] []).2.1 {} _).mp (exists_error_of_toOption ?_)
    decide +kernel

end ImportContext
