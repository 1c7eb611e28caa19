import ImportContext.Proofs.Import.Grammar
import ImportContext.Proofs.Import.Sequence

/-!
# What declarations are made of

However an import statement is laid out, what the readers take from it are words, and what the
checks leave are words that are no keywords. A path that begins with `__future__` is either behind
dots or that one word, and then members are named.

Results:
* `ImportStatement.ReadAt.words`: a statement that was read holds words.
* `ImportStatement.written`: what such a statement declares is made of names.
* `written_of_declarationsOf`: so are the declarations of a text, those outside functions and
  classes among them.
* `Written.slash_not_mem_modulePath`, `Written.slash_not_mem_symbol`: names have no slashes.
-/

namespace ImportContext

open Source

/-! ## Words of a statement -/

namespace Source

/-- The words of a dotted name and of its alias are words. -/
def ItemWords.AreWords (i : ItemWords) : Prop :=
  i.parts ≠ [] ∧ (∀ w ∈ i.parts, IsWord w) ∧ ∀ w ∈ i.asName, IsWord w

/-- Dots and words that a `from` statement can import from. -/
structure IsOrigin (depth : Nat) (path : List String) : Prop where
  some : 0 < depth ∨ path ≠ []
  words : ∀ w ∈ path, IsWord w
  future : depth = 0 → path.head? = .some "__future__" → path = ["__future__"]

/-- The words of a statement that was read. -/
def ImportForm.AreWords : ImportForm → Prop
  | .modules items => ∀ i ∈ items, i.words.AreWords
  | .members source items =>
    IsOrigin source.words.1 source.words.2 ∧ ∀ i ∈ items, i.words.AreWords
  | .wildcard source =>
    IsOrigin source.words.1 source.words.2 ∧ source.words ≠ (0, ["__future__"])

variable {e : Expected} {current fuel : Nat} {k k' : Cursor}

theorem dottedTail_words {ws : List String} (h : dottedTail e current fuel k = some (ws, k')) :
    ∀ w ∈ ws, IsWord w := by
  induction fuel generalizing k k' ws with
  | zero =>
    cases h
    simp
  | succ fuel ih =>
    rw [dottedTail] at h
    split at h
    · split at h
      · simp only [Option.bind_eq_bind, Option.bind_eq_some_iff] at h
        obtain ⟨k₁, -, ⟨w, k₂⟩, hword, ⟨ws', k₃⟩, htail, h⟩ := h
        cases h
        exact List.forall_mem_cons.mpr ⟨isWord_of_takeWord hword, ih htail⟩
      · cases h
        simp
    · cases h
      simp

theorem readDotted_words {name : DottedName} (h : readDotted e current k = some (name, k')) :
    (∃ w ws, name.parts = w :: ws ∧ word? k.rest = some w) ∧ ∀ w ∈ name.parts, IsWord w := by
  simp only [readDotted, Option.bind_eq_bind, Option.bind_eq_some_iff] at h
  obtain ⟨⟨w, k₁⟩, hword, ⟨ws, k₂⟩, htail, h⟩ := h
  cases h
  refine ⟨⟨w, ws, rfl, ?_⟩, ?_⟩
  · rw [Cursor.takeWord] at hword
    split at hword
    · next w' hw' =>
      cases hword
      exact hw'
    · cases hword
  · exact List.forall_mem_cons.mpr ⟨isWord_of_takeWord hword, dottedTail_words htail⟩

theorem readItem_words {item : ImportItem} (h : readItem e current k = some (item, k')) :
    item.words.AreWords := by
  simp only [readItem, Option.bind_eq_bind, Option.bind_eq_some_iff] at h
  obtain ⟨⟨path, k₁⟩, hpath, h⟩ := h
  obtain ⟨⟨w, ws, hparts, -⟩, hwords⟩ := readDotted_words hpath
  have hne : path.parts ≠ [] := by
    rw [hparts]
    exact List.cons_ne_nil w ws
  have hbare : ImportItem.words ⟨path, none⟩ |>.AreWords :=
    ⟨hne, hwords, by simp [ImportItem.words]⟩
  split at h
  · split at h
    · simp only [Option.bind_eq_some_iff] at h
      obtain ⟨k₂, -, ⟨a, k₃⟩, halias, h⟩ := h
      cases h
      exact ⟨hne, hwords, by simpa [ImportItem.words] using isWord_of_takeWord halias⟩
    · cases h
      exact hbare
  · cases h
    exact hbare

theorem readItems_words {items : List ImportItem} {comma : Option Position}
    (h : readItems e current fuel k = some (items, comma, k')) :
    ∀ i ∈ items, i.words.AreWords := by
  induction fuel generalizing k k' items comma with
  | zero => cases h
  | succ fuel ih =>
    simp only [readItems, Option.bind_eq_bind, Option.bind_eq_some_iff] at h
    obtain ⟨⟨item, k₁⟩, hitem, h⟩ := h
    have hone : ∀ i ∈ [item], i.words.AreWords := by simpa using readItem_words hitem
    split at h
    · split at h
      · split at h
        · split at h
          · simp only [Option.bind_eq_some_iff] at h
            obtain ⟨⟨items', comma', k₂⟩, hitems, h⟩ := h
            cases h
            exact List.forall_mem_cons.mpr ⟨readItem_words hitem, ih hitems⟩
          · cases h
            exact hone
        · cases h
          exact hone
      · cases h
        exact hone
    · cases h
      exact hone

/-- Behind a first dot there is a number of dots. -/
theorem readDots_pos {n : Nat} (hk : k.rest.head? = some '.') (hfuel : 0 < fuel)
    (h : readDots current fuel k = some (n, k')) : 0 < n := by
  obtain ⟨fuel, rfl⟩ : ∃ f, fuel = f + 1 := ⟨fuel - 1, by omega⟩
  rw [readDots, Cursor.expectChar, if_pos hk] at h
  simp only [Option.bind_eq_bind, Option.bind_eq_some_iff] at h
  obtain ⟨k₁, -, ⟨m, k₂⟩, -, h⟩ := h
  split at h
  · cases h
    exact Nat.one_pos
  · cases h
    omega

theorem readSource_words {source : ImportSource} (h : readSource current k = some (source, k')) :
    IsOrigin source.words.1 source.words.2 ∧
      (source.words = (0, ["__future__"]) → source = .future) := by
  rw [readSource] at h
  split at h
  · next hdot =>
    simp only [Option.bind_eq_bind, Option.bind_eq_some_iff] at h
    obtain ⟨⟨dots, k₁⟩, hdots, h⟩ := h
    have hlength : 0 < k.rest.length := by
      cases hrest : k.rest with
      | nil => rw [hrest] at hdot; cases hdot
      | cons c cs => simp
    have hpos : 0 < dots := readDots_pos hdot hlength hdots
    split at h
    · cases h
      refine ⟨⟨.inl hpos, by simp [ImportSource.words], ?_⟩, by simp [ImportSource.words]⟩
      simp [ImportSource.words]
    · simp only [Option.bind_eq_some_iff] at h
      obtain ⟨⟨path, k₂⟩, hpath, k₃, -, h⟩ := h
      cases h
      refine ⟨⟨.inl hpos, (readDotted_words hpath).2, ?_⟩, ?_⟩
      · intro hzero
        exact absurd hpos (by simp only [ImportSource.words] at hzero; omega)
      · intro hwords
        simp only [ImportSource.words, Prod.mk.injEq] at hwords
        omega
  · split at h
    · simp only [Option.bind_eq_bind, Option.bind_eq_some_iff] at h
      obtain ⟨k₁, -, h⟩ := h
      cases h
      refine ⟨⟨.inr (List.cons_ne_nil _ _), ?_, fun _ _ => rfl⟩, fun _ => rfl⟩
      intro w hw
      obtain rfl := List.mem_singleton.mp hw
      exact isWord_of_all rfl rfl rfl
    · next hfuture =>
      simp only [Option.bind_eq_bind, Option.bind_eq_some_iff] at h
      obtain ⟨⟨path, k₁⟩, hpath, k₂, -, h⟩ := h
      cases h
      obtain ⟨⟨w, ws, hparts, hword⟩, hwords⟩ := readDotted_words hpath
      -- the first word of a path without dots is not the one that has a reader of its own
      have hhead : path.parts.head? ≠ some "__future__" := by
        rw [hparts, List.head?_cons, ← hword]
        exact hfuture
      refine ⟨⟨.inr ?_, hwords, fun _ h => absurd h hhead⟩, ?_⟩
      · intro hnil
        rw [ImportSource.words] at hnil
        rw [hparts] at hnil
        cases hnil
      · intro h
        have hpath : path.parts = ["__future__"] := (Prod.mk.inj h).2
        rw [hpath] at hhead
        exact absurd rfl hhead

theorem readListing_words {pos : Position} {source : ImportSource} {s : ImportStatement}
    (hsource : IsOrigin source.words.1 source.words.2)
    (hfuture : source.words = (0, ["__future__"]) → source = .future)
    (h : readListing current pos source k = some (s, k')) : s.form.AreWords := by
  rw [readListing] at h
  split at h
  · split at h
    · cases h
    · next hne =>
      cases h
      exact ⟨hsource, fun hwords => hne (hfuture hwords)⟩
  · split at h
    · simp only [Option.bind_eq_bind, Option.bind_eq_some_iff] at h
      obtain ⟨k₁, -, ⟨items, comma, k₂⟩, hitems, k₃, -, k₄, -, h⟩ := h
      cases h
      exact ⟨hsource, readItems_words hitems⟩
    · simp only [Option.bind_eq_bind, Option.bind_eq_some_iff] at h
      obtain ⟨⟨items, comma, k₂⟩, hitems, h⟩ := h
      cases h
      exact ⟨hsource, readItems_words hitems⟩

/-- A statement that was read holds words. -/
theorem ImportStatement.ReadAt.words {s : ImportStatement} (h : s.ReadAt k k') :
    s.form.AreWords := by
  obtain ⟨current, ⟨-, h⟩ | ⟨-, h⟩⟩ := h
  · simp only [readModules, Option.bind_eq_bind, Option.bind_eq_some_iff] at h
    obtain ⟨k₁, -, ⟨items, comma, k₂⟩, hitems, h⟩ := h
    cases h
    exact readItems_words hitems
  · simp only [readMembers, Option.bind_eq_bind, Option.bind_eq_some_iff] at h
    obtain ⟨k₁, -, ⟨source, k₂⟩, hsource, k₃, -, k₄, -, h⟩ := h
    obtain ⟨horigin, hfuture⟩ := readSource_words hsource
    exact readListing_words horigin hfuture h

theorem ImportsBetween.exists_readAt {ss : List ImportStatement} (h : ImportsBetween k ss k') :
    ∀ s ∈ ss, ∃ start stop, s.ReadAt start stop := by
  induction h with
  | nil _ => simp
  | cons _ hat _ ih => exact List.forall_mem_cons.mpr ⟨⟨_, _, hat⟩, ih⟩

end Source

/-! ## Names of a declaration -/

/-- A word that may name a module, a member or an alias. -/
def IsImportName (w : String) : Prop :=
  IsWord w ∧ w ∉ keywords

/-- The declarations that a statement can give. -/
inductive ImportDeclaration.Written : ImportDeclaration → Prop where
  | plain {parts : List String} {asName : Option String} {pos : Position} (hne : parts ≠ [])
      (hparts : ∀ w ∈ parts, IsImportName w) (hasName : ∀ w ∈ asName, IsImportName w) :
      Written (.plain ⟨dotted parts, asName, pos⟩)
  | member {path : List String} {depth : Nat} {symbol : String} {asName : Option String}
      {pos : Position} (horigin : IsOrigin depth path) (hpath : ∀ w ∈ path, w ∉ keywords)
      (hsymbol : IsImportName symbol) (hasName : ∀ w ∈ asName, IsImportName w) :
      Written (.member ⟨dotted path, symbol, asName, depth, pos⟩)
  | wildcard {path : List String} {depth : Nat} {pos : Position} (horigin : IsOrigin depth path)
      (hpath : ∀ w ∈ path, w ∉ keywords) (hfuture : (depth, path) ≠ (0, ["__future__"])) :
      Written (.member ⟨dotted path, "*", none, depth, pos⟩)

theorem dotted_singleton (w : String) : dotted [w] = w := by
  rw [dotted, ← String.toList_inj]
  simp

theorem dotted_cons_cons (w w' : String) (ws : List String) :
    dotted (w :: w' :: ws) = w ++ "." ++ dotted (w' :: ws) := by
  rw [← String.toList_inj]
  simp [dotted, String.toList_intercalate]

/-- A dotted name has the characters of its words, and dots. -/
theorem not_mem_dotted {c : Char} {ws : List String} (hc : isWordPart c = false) (hdot : c ≠ '.')
    (hws : ∀ w ∈ ws, IsWord w) : c ∉ (dotted ws).toList := by
  induction ws with
  | nil => simp [dotted]
  | cons w ws ih =>
    obtain ⟨hw, hws⟩ := List.forall_mem_cons.mp hws
    have hword : c ∉ w.toList := hw.not_mem hc
    cases ws with
    | nil => rwa [dotted_singleton]
    | cons w' ws =>
      have hrest := ih hws
      rw [dotted_cons_cons]
      simp [hword, hdot, hrest]

/-- What a statement of words declares is made of names. -/
theorem Source.ImportStatement.written {s : ImportStatement} {ds : List ImportDeclaration}
    (hs : s.form.AreWords) (h : s.declarations = .ok ds) {d : ImportDeclaration} (hd : d ∈ ds) :
    d.Written := by
  obtain ⟨pos, form, bareComma⟩ := s
  cases form with
  | modules items =>
    obtain ⟨-, hnames, rfl⟩ := declarations_modules_eq_ok_iff.mp h
    obtain ⟨i, hi, rfl⟩ := List.mem_map.mp hd
    obtain ⟨item, hitem, rfl⟩ := List.mem_map.mp hi
    obtain ⟨hne, hparts, hasName⟩ := hs item hitem
    obtain ⟨hkeyword, haliasKeyword⟩ := hnames _ hi
    exact .plain hne (fun w hw => ⟨hparts w hw, hkeyword w hw⟩)
      fun w hw => ⟨hasName w hw, haliasKeyword w hw⟩
  | members source items =>
    cases bareComma with
    | some comma => cases h
    | none =>
      obtain ⟨hpath, hnames, rfl⟩ := declarations_members_eq_ok_iff.mp h
      obtain ⟨i, hi, rfl⟩ := List.mem_map.mp hd
      obtain ⟨item, hitem, rfl⟩ := List.mem_map.mp hi
      obtain ⟨-, hparts, hasName⟩ := hs.2 item hitem
      obtain ⟨hone, hkeyword, haliasKeyword⟩ := hnames _ hi
      obtain ⟨symbol, hsymbol⟩ := List.length_eq_one_iff.mp hone
      rw [ItemWords.memberDeclaration, hsymbol, dotted_singleton]
      rw [hsymbol] at hparts hkeyword
      exact .member hs.1 hpath ⟨hparts symbol (by simp), hkeyword symbol (by simp)⟩
        fun w hw => ⟨hasName w hw, haliasKeyword w hw⟩
  | wildcard source =>
    cases bareComma with
    | some comma => cases h
    | none =>
      obtain ⟨hpath, rfl⟩ := declarations_wildcard_eq_ok_iff.mp h
      obtain rfl := List.mem_singleton.mp hd
      exact .wildcard hs.1 hpath hs.2

theorem mem_declarationsOf {ss : List ImportStatement} {ds : List ImportDeclaration}
    (h : declarationsOf ss = .ok ds) {d : ImportDeclaration} (hd : d ∈ ds) :
    ∃ s ∈ ss, ∃ group, s.declarations = .ok group ∧ d ∈ group := by
  obtain ⟨groups, hgroups, h⟩ := bind_eq_ok_iff.mp h
  cases h
  obtain ⟨group, hgroup, hd⟩ := List.mem_flatten.mp hd
  obtain ⟨s, hs, hsgroup⟩ := (mem_of_mapM_eq_ok hgroups).mp hgroup
  exact ⟨s, hs, group, hsgroup, hd⟩

mutual

/-- The import statements outside functions and classes are among all of them. -/
theorem Source.Statement.imports_subset (s : Statement) : s.imports false ⊆ s.imports true := by
  match s with
  | .importing s => exact List.Subset.refl _
  | .assigning names lines => exact List.Subset.refl _
  | .defining kind name lines body =>
    rw [Statement.imports]
    exact List.nil_subset _
  | .compound body =>
    rw [Statement.imports, Statement.imports]
    exact importsIn_subset body
  | .other => exact List.Subset.refl _

theorem importsIn_subset (body : List Statement) : importsIn false body ⊆ importsIn true body := by
  match body with
  | [] => exact List.Subset.refl _
  | s :: rest =>
    rw [importsIn, importsIn]
    exact List.append_subset.mpr
      ⟨List.subset_append_of_subset_left _ s.imports_subset,
        List.subset_append_of_subset_right _ (importsIn_subset rest)⟩

end

/-- The declarations of a text are made of names. -/
theorem written_of_declarationsOf {source : String} {body : List Statement} {nested : Bool}
    {ds : List ImportDeclaration} (hread : readSource? source = some body)
    (hds : declarationsOf (importsIn nested body) = .ok ds) {d : ImportDeclaration} (hd : d ∈ ds) :
    d.Written := by
  obtain ⟨k', hbetween⟩ := readSource?_imports hread
  obtain ⟨s, hs, group, hgroup, hd⟩ := mem_declarationsOf hds hd
  have hs' : s ∈ importsIn true body := by
    cases nested with
    | true => exact hs
    | false => exact importsIn_subset body hs
  obtain ⟨start, stop, hat⟩ := hbetween.exists_readAt s hs'
  exact ImportStatement.written hat.words hgroup hd

theorem extractImports_written {source : String} {ds : List ImportDeclaration}
    (h : extractImports source = .ok ds) {d : ImportDeclaration} (hd : d ∈ ds) : d.Written := by
  obtain ⟨body, hread, hds⟩ := extractImports_eq_ok_iff.mp h
  exact written_of_declarationsOf hread hds hd

/-! ## Slashes -/

namespace ImportDeclaration.Written

theorem slash_not_mem_modulePath {d : ImportDeclaration} (h : d.Written) :
    '/' ∉ d.modulePath.toList := by
  cases h with
  | plain _ hparts _ => exact not_mem_dotted rfl (by decide) fun w hw => (hparts w hw).1
  | member horigin => exact not_mem_dotted rfl (by decide) horigin.words
  | wildcard horigin => exact not_mem_dotted rfl (by decide) horigin.words

theorem slash_not_mem_symbol {d : FromImport} (h : Written (.member d)) :
    '/' ∉ d.symbol.toList := by
  cases h with
  | member _ _ hsymbol _ => exact hsymbol.1.not_mem rfl
  | wildcard => exact show '/' ∉ "*".toList by decide

end ImportDeclaration.Written

end ImportContext
