import ImportContext.Proofs.Import.Tokens

/-!
# Readers of import statements on tokens

For each reader there are two statements. What it reads, it takes off the line as the tokens of
its result (`…_sound`); and where a line goes on with the tokens of a result, and not with a token
that would lengthen it, the reader gives that result (`…_complete`).

Results:
* `readItems_sound`, `readItems_complete`: lists of names with aliases.
* `readSource_sound`, `readSource_complete`: where a `from` statement imports from.
* `readModules_sound`, `readModules_complete`: `import` statements.
* `readMembers_sound`, `readMembers_complete`: `from` statements.
-/

namespace ImportContext.Source

open ImportToken

/-- The words of an imported name and of its alias. -/
structure ItemWords where
  parts : List String
  asName : Option String
deriving DecidableEq, Repr

def ImportItem.words (i : ImportItem) : ItemWords :=
  ⟨i.path.parts, i.asName.map (·.1)⟩

/-- The tokens of further parts of a dotted name. -/
def morePartTokens (ws : List String) : List ImportToken :=
  ws.flatMap fun w => [.mark .dot, .word w]

theorem morePartTokens_cons (w : String) (ws : List String) :
    morePartTokens (w :: ws) = .mark .dot :: .word w :: morePartTokens ws :=
  rfl

theorem length_le_morePartTokens (ws : List String) : ws.length ≤ (morePartTokens ws).length := by
  induction ws with
  | nil => exact Nat.le_refl 0
  | cons w ws ih =>
    rw [morePartTokens_cons, List.length_cons, List.length_cons, List.length_cons]
    omega

/-- The tokens of a dotted name. -/
def dottedTokens : List String → List ImportToken
  | [] => []
  | w :: ws => .word w :: morePartTokens ws

def aliasTokens : Option String → List ImportToken
  | none => []
  | some w => [.word "as", .word w]

def ItemWords.tokens (i : ItemWords) : List ImportToken :=
  dottedTokens i.parts ++ aliasTokens i.asName

/-- The tokens of items between commas. -/
def listTokens : List ItemWords → List ImportToken
  | [] => []
  | i :: is => i.tokens ++ is.flatMap fun i => .mark .comma :: i.tokens

theorem listTokens_cons (i : ItemWords) {is : List ItemWords} (hne : is ≠ []) :
    listTokens (i :: is) = i.tokens ++ .mark .comma :: listTokens is := by
  obtain ⟨j, is, rfl⟩ := List.exists_cons_of_ne_nil hne
  rfl

/-- A comma that may stand behind a list. -/
def commaTokens (comma : Bool) : List ImportToken :=
  if comma then [.mark .comma] else []

/-- The dots and words that say where a `from` statement imports from. -/
def ImportSource.words : ImportSource → Nat × List String
  | .future => (0, ["__future__"])
  | .absolute path => (0, path.parts)
  | .relative dots parts _ => (dots, parts)

def dotTokens (dots : Nat) : List ImportToken :=
  List.replicate dots (.mark .dot)

def originTokens (dots : Nat) (path : List String) : List ImportToken :=
  dotTokens dots ++ dottedTokens path

/-- What a `from` statement may import. -/
inductive Listing where
  | all
  | bare (items : List ItemWords)
  | enclosed (items : List ItemWords) (comma : Bool)
deriving DecidableEq, Repr

namespace Listing

def tokens : Listing → List ImportToken
  | all => [.mark .star]
  | bare items => listTokens items
  | enclosed items comma =>
    .mark .opening :: (listTokens items ++ (commaTokens comma ++ [.mark .closing]))

/-- What the reader makes of a listing. -/
def Form (source : ImportSource) : Listing → ImportForm → Prop
  | all, form => form = .wildcard source
  | bare is, form => is ≠ [] ∧ ∃ items, form = .members source items ∧ items.map (·.words) = is
  | enclosed is _, form =>
    is ≠ [] ∧ ∃ items, form = .members source items ∧ items.map (·.words) = is

end Listing

section Readers

variable {e : Expected} {fuel : Nat} {k k' : Cursor} {ts rest : List ImportToken}
  {ws : List String}

/-! ## Dotted names -/

theorem dottedTail_stop (hk : k.rest = behind ts) (hts : ∀ t ∈ ts, t.IsProper)
    (hstop : ts.head? ≠ some (.mark .dot)) : dottedTail e 0 fuel k = some ([], k) := by
  cases fuel with
  | zero => rfl
  | succ fuel =>
    rw [dottedTail]
    rcases ahead_no_mark hk hts hstop with ⟨at_, hahead, hdot⟩ | ⟨l, at_, hahead⟩
    · rw [hahead]
      simp only [show at_.expectChar '.' = none from hdot]
    · rw [hahead]

theorem dottedTail_dot (hk : k.rest = behind (.mark .dot :: ts)) (hts : ∀ t ∈ ts, t.IsProper) :
    ∃ next : Cursor, next.rest = front ts ∧ ∀ fuel, dottedTail e 0 (fuel + 1) k =
      next.takeWord.bind fun (w, k) =>
        (dottedTail e 0 fuel k).bind fun (ws, k) => some (w :: ws, k) := by
  obtain ⟨at_, hahead, -, hdot, hrest⟩ := ahead_mark (e := e) hk
  refine ⟨(at_.advance 1).advance 1, rest_blank hrest, fun fuel => ?_⟩
  rw [dottedTail, hahead]
  simp only [show at_.expectChar '.' = some (at_.advance 1) from hdot]
  rw [token_behind hrest hts rfl]
  rfl

theorem dottedTail_sound (hk : k.rest = behind ts) (hts : ∀ t ∈ ts, t.IsProper)
    (h : dottedTail e 0 fuel k = some (ws, k')) :
    ∃ rest, ts = morePartTokens ws ++ rest ∧ k'.rest = behind rest := by
  induction fuel generalizing k ts ws with
  | zero =>
    cases h
    exact ⟨ts, rfl, hk⟩
  | succ fuel ih =>
    by_cases hdot : ts.head? = some (.mark .dot)
    · obtain ⟨ts, rfl⟩ := List.head?_eq_some_iff.mp hdot
      have hts' := (List.forall_mem_cons.mp hts).2
      obtain ⟨next, hnext, hstep⟩ := dottedTail_dot (e := e) hk hts'
      rw [hstep] at h
      obtain ⟨⟨w, k₁⟩, hword, h⟩ := Option.bind_eq_some_iff.mp h
      obtain ⟨⟨ws, k₂⟩, htail, h⟩ := Option.bind_eq_some_iff.mp h
      cases h
      obtain ⟨ts, rfl, hk₁⟩ := exists_of_takeWord hnext hts' hword
      obtain ⟨rest, rfl, hrest⟩ := ih hk₁ (List.forall_mem_cons.mp hts').2 htail
      exact ⟨rest, rfl, hrest⟩
    · rw [dottedTail_stop hk hts hdot] at h
      cases h
      exact ⟨ts, rfl, hk⟩

theorem dottedTail_complete (hk : k.rest = behind (morePartTokens ws ++ rest))
    (hts : ∀ t ∈ morePartTokens ws ++ rest, t.IsProper) (hstop : rest.head? ≠ some (.mark .dot))
    (hfuel : ws.length ≤ fuel) :
    ∃ k', dottedTail e 0 fuel k = some (ws, k') ∧ k'.rest = behind rest := by
  induction ws generalizing k fuel with
  | nil => exact ⟨k, dottedTail_stop hk hts hstop, hk⟩
  | cons w ws ih =>
    rw [morePartTokens_cons, List.cons_append, List.cons_append] at hk hts
    have hts₁ := (List.forall_mem_cons.mp hts).2
    obtain ⟨fuel, rfl⟩ : ∃ n, fuel = n + 1 :=
      Nat.exists_eq_add_one.mpr (Nat.lt_of_lt_of_le (Nat.succ_pos _) hfuel)
    obtain ⟨next, hnext, hstep⟩ := dottedTail_dot (e := e) hk hts₁
    obtain ⟨k₁, hword, hk₁⟩ := takeWord_word hnext hts₁
    obtain ⟨k₂, htail, hk₂⟩ := ih hk₁ (List.forall_mem_cons.mp hts₁).2
      (Nat.le_of_succ_le_succ hfuel)
    refine ⟨k₂, ?_, hk₂⟩
    simp only [hstep, hword, htail, Option.bind_some]

theorem readDotted_sound {d : DottedName} (hk : k.rest = front ts) (hts : ∀ t ∈ ts, t.IsProper)
    (h : readDotted e 0 k = some (d, k')) :
    d.parts ≠ [] ∧ ∃ rest, ts = dottedTokens d.parts ++ rest ∧ k'.rest = behind rest := by
  obtain ⟨⟨w, k₁⟩, hword, h⟩ := Option.bind_eq_some_iff.mp h
  obtain ⟨⟨ws, k₂⟩, htail, h⟩ := Option.bind_eq_some_iff.mp h
  cases h
  obtain ⟨ts, rfl, hk₁⟩ := exists_of_takeWord hk hts hword
  obtain ⟨rest, rfl, hrest⟩ := dottedTail_sound hk₁ (List.forall_mem_cons.mp hts).2 htail
  exact ⟨List.cons_ne_nil _ _, rest, rfl, hrest⟩

theorem readDotted_complete (hne : ws ≠ []) (hk : k.rest = front (dottedTokens ws ++ rest))
    (hts : ∀ t ∈ dottedTokens ws ++ rest, t.IsProper)
    (hstop : rest.head? ≠ some (.mark .dot)) :
    ∃ k', readDotted e 0 k = some (⟨ws, k.pos⟩, k') ∧ k'.rest = behind rest := by
  obtain ⟨w, ws, rfl⟩ := List.exists_cons_of_ne_nil hne
  obtain ⟨k₁, hword, hk₁⟩ := takeWord_word hk hts
  have hfuel : ws.length ≤ k₁.rest.length := by
    rw [hk₁]
    have hparts := length_le_morePartTokens ws
    have hall := length_lt_behind (morePartTokens ws ++ rest)
    rw [List.length_append] at hall
    exact Nat.le_trans (Nat.le_trans hparts (Nat.le_add_right _ _)) (Nat.le_of_lt hall)
  obtain ⟨k₂, htail, hk₂⟩ := dottedTail_complete (e := e) hk₁ (List.forall_mem_cons.mp hts).2
    hstop hfuel
  refine ⟨k₂, ?_, hk₂⟩
  rw [readDotted, hword]
  simp only [Option.bind_eq_bind, Option.bind_some, htail]

/-! ## Items -/

theorem readItem_plain {d : DottedName} {k₁ : Cursor} (hd : readDotted e 0 k = some (d, k₁))
    (hk₁ : k₁.rest = behind ts) (hts : ∀ t ∈ ts, t.IsProper) (hstop : headWord? ts ≠ some "as") :
    readItem e 0 k = some (⟨d, none⟩, k₁) := by
  rw [readItem, hd]
  rcases ahead_no_word (e := e) hk₁ hts hstop with ⟨at_, hahead, hword⟩ | ⟨l, at_, hahead⟩
  · simp only [Option.bind_eq_bind, Option.bind_some, hahead, hword]
  · simp only [Option.bind_eq_bind, Option.bind_some, hahead]

theorem readItem_as {d : DottedName} {k₁ : Cursor} (hd : readDotted e 0 k = some (d, k₁))
    (hk₁ : k₁.rest = behind (.word "as" :: ts))
    (hts : ∀ t ∈ (.word "as" :: ts : List ImportToken), t.IsProper) :
    ∃ next : Cursor, next.rest = front ts ∧ readItem e 0 k =
      next.takeWord.bind fun (w, after) => some (⟨d, some (w, next.pos)⟩, after) := by
  obtain ⟨at_, hahead, hword, hrest⟩ := ahead_word (e := e) hk₁ hts
  refine ⟨(at_.advance 2).advance 1, rest_blank hrest, ?_⟩
  rw [readItem, hd]
  simp only [Option.bind_eq_bind, Option.bind_some, hahead, hword]
  rw [token_behind hrest (List.forall_mem_cons.mp hts).2 rfl]
  rfl

theorem readItem_sound {i : ImportItem} (hk : k.rest = front ts) (hts : ∀ t ∈ ts, t.IsProper)
    (h : readItem e 0 k = some (i, k')) :
    i.words.parts ≠ [] ∧ ∃ rest, ts = i.words.tokens ++ rest ∧ k'.rest = behind rest := by
  obtain ⟨⟨d, k₁⟩, hd, -⟩ := Option.bind_eq_some_iff.mp h
  obtain ⟨hne, ts₁, rfl, hk₁⟩ := readDotted_sound hk hts hd
  have hts₁ := (List.forall_mem_append.mp hts).2
  by_cases has : headWord? ts₁ = some "as"
  · obtain ⟨ts₁, rfl⟩ := eq_cons_of_headWord? has
    obtain ⟨next, hnext, hstep⟩ := readItem_as hd hk₁ hts₁
    rw [hstep] at h
    obtain ⟨⟨w, k₂⟩, hword, h⟩ := Option.bind_eq_some_iff.mp h
    cases h
    obtain ⟨rest, rfl, hrest⟩ := exists_of_takeWord hnext (List.forall_mem_cons.mp hts₁).2 hword
    exact ⟨hne, rest, by simp [ItemWords.tokens, ImportItem.words, aliasTokens], hrest⟩
  · rw [readItem_plain hd hk₁ hts₁ has] at h
    cases h
    exact ⟨hne, ts₁, by simp [ItemWords.tokens, ImportItem.words, aliasTokens], hk₁⟩

theorem readItem_complete {i : ItemWords} (hne : i.parts ≠ [])
    (hk : k.rest = front (i.tokens ++ rest)) (hts : ∀ t ∈ i.tokens ++ rest, t.IsProper)
    (hdot : rest.head? ≠ some (.mark .dot)) (has : headWord? rest ≠ some "as") :
    ∃ item k', readItem e 0 k = some (item, k') ∧ item.words = i ∧ k'.rest = behind rest := by
  obtain ⟨parts, asName⟩ := i
  rw [ItemWords.tokens, List.append_assoc] at hk hts
  have hts₁ := (List.forall_mem_append.mp hts).2
  cases asName with
  | none =>
    obtain ⟨k₁, hd, hk₁⟩ := readDotted_complete hne hk hts hdot
    exact ⟨_, k₁, readItem_plain hd hk₁ hts₁ has, rfl, hk₁⟩
  | some w =>
    obtain ⟨k₁, hd, hk₁⟩ := readDotted_complete hne hk hts (by simp [aliasTokens])
    obtain ⟨next, hnext, hstep⟩ := readItem_as (e := e) hd hk₁ hts₁
    obtain ⟨k₂, hword, hk₂⟩ := takeWord_word hnext (List.forall_mem_cons.mp hts₁).2
    refine ⟨⟨⟨parts, k.pos⟩, some (w, next.pos)⟩, k₂, ?_, rfl, hk₂⟩
    rw [hstep, hword, Option.bind_some]

/-! ## Lists of items -/

theorem readItems_last {item : ImportItem} {k₁ : Cursor} (hi : readItem e 0 k = some (item, k₁))
    (hk₁ : k₁.rest = behind ts) (hts : ∀ t ∈ ts, t.IsProper)
    (hstop : ts.head? ≠ some (.mark .comma)) :
    readItems e 0 (fuel + 1) k = some ([item], none, k₁) := by
  rw [readItems, hi]
  rcases ahead_no_mark (e := e) hk₁ hts hstop with ⟨at_, hahead, hcomma⟩ | ⟨l, at_, hahead⟩
  · have hcomma : at_.expectChar ',' = none := hcomma
    simp only [Option.bind_eq_bind, Option.bind_some, hahead, hcomma]
  · simp only [Option.bind_eq_bind, Option.bind_some, hahead]

theorem readItems_comma {item : ImportItem} {k₁ : Cursor} (hi : readItem e 0 k = some (item, k₁))
    (hk₁ : k₁.rest = behind (.mark .comma :: ts)) (hts : ∀ t ∈ ts, t.IsProper)
    (hstop : headWord? ts = none) :
    ∃ pos comma, comma.rest = behind ts ∧
      ∀ fuel, readItems e 0 (fuel + 1) k = some ([item], some pos, comma) := by
  obtain ⟨at_, hahead, -, hcomma, hrest⟩ := ahead_mark (e := e) hk₁
  have hcomma : at_.expectChar ',' = some (at_.advance 1) := hcomma
  refine ⟨at_.pos, at_.advance 1, hrest, fun fuel => ?_⟩
  rw [readItems, hi]
  simp only [Option.bind_eq_bind, Option.bind_some, hahead, hcomma]
  rw [ahead_behind hrest hts]
  split
  · next hnext =>
    split at hnext
    · cases hnext
    · cases hnext
      rw [rest_blank hrest, word?_front hts, hstop]
      rfl
  · rfl

theorem readItems_more {item : ImportItem} {k₁ : Cursor} {w : String}
    (hi : readItem e 0 k = some (item, k₁)) (hk₁ : k₁.rest = behind (.mark .comma :: ts))
    (hts : ∀ t ∈ ts, t.IsProper) (hword : headWord? ts = some w) :
    ∃ next : Cursor, next.rest = front ts ∧ ∀ fuel, readItems e 0 (fuel + 1) k =
      (readItems e 0 fuel next).bind fun (items, trailing, k) =>
        some (item :: items, trailing, k) := by
  obtain ⟨at_, hahead, -, hcomma, hrest⟩ := ahead_mark (e := e) hk₁
  have hcomma : at_.expectChar ',' = some (at_.advance 1) := hcomma
  have hnext : (at_.advance 1).ahead e 0 = (none, (at_.advance 1).advance 1) := by
    obtain ⟨ts, rfl⟩ := eq_cons_of_headWord? hword
    exact ahead_behind hrest hts
  refine ⟨(at_.advance 1).advance 1, rest_blank hrest, fun fuel => ?_⟩
  rw [readItems, hi]
  simp only [Option.bind_eq_bind, Option.bind_some, hahead, hcomma, hnext]
  rw [rest_blank hrest, word?_front hts, hword]
  rfl

theorem readItems_sound {items : List ImportItem} {trailing : Option Position}
    (hk : k.rest = front ts) (hts : ∀ t ∈ ts, t.IsProper)
    (h : readItems e 0 fuel k = some (items, trailing, k')) :
    items ≠ [] ∧ (∀ i ∈ items, i.words.parts ≠ []) ∧ ∃ rest,
      ts = listTokens (items.map ImportItem.words) ++ (commaTokens trailing.isSome ++ rest) ∧
        k'.rest = behind rest := by
  induction fuel generalizing k ts items with
  | zero => cases h
  | succ fuel ih =>
    obtain ⟨item, k₁, hi⟩ : ∃ item k₁, readItem e 0 k = some (item, k₁) := by
      rw [readItems] at h
      obtain ⟨⟨item, k₁⟩, hi, -⟩ := Option.bind_eq_some_iff.mp h
      exact ⟨item, k₁, hi⟩
    obtain ⟨hparts, ts₁, rfl, hk₁⟩ := readItem_sound hk hts hi
    have hts₁ := (List.forall_mem_append.mp hts).2
    by_cases hcomma : ts₁.head? = some (.mark .comma)
    · obtain ⟨ts₂, rfl⟩ := List.head?_eq_some_iff.mp hcomma
      have hts₂ := (List.forall_mem_cons.mp hts₁).2
      cases hword : headWord? ts₂ with
      | none =>
        obtain ⟨pos, comma, hrest, hstep⟩ := readItems_comma hi hk₁ hts₂ hword
        rw [hstep] at h
        cases h
        exact ⟨by simp, by simpa using hparts, ts₂, by simp [listTokens, commaTokens], hrest⟩
      | some w =>
        obtain ⟨next, hnext, hstep⟩ := readItems_more hi hk₁ hts₂ hword
        rw [hstep] at h
        obtain ⟨⟨more, trailing', k₂⟩, hmore, h⟩ := Option.bind_eq_some_iff.mp h
        cases h
        obtain ⟨hne, hall, rest, rfl, hrest⟩ := ih hnext hts₂ hmore
        refine ⟨List.cons_ne_nil _ _, List.forall_mem_cons.mpr ⟨hparts, hall⟩, rest, ?_, hrest⟩
        rw [List.map_cons, listTokens_cons _ (by simpa using hne), List.append_assoc,
          List.cons_append]
    · rw [readItems_last hi hk₁ hts₁ hcomma] at h
      cases h
      exact ⟨by simp, by simpa using hparts, ts₁, by simp [listTokens, commaTokens], hk₁⟩

/-- Nothing follows on a line, or a closing bracket does. -/
def Closes (rest : List ImportToken) : Prop :=
  ∀ t, rest.head? = some t → t = .mark .closing

theorem Closes.headWord? (h : Closes rest) : headWord? rest = none := by
  cases hword : ImportToken.headWord? rest with
  | none => rfl
  | some w =>
    obtain ⟨rest, rfl⟩ := eq_cons_of_headWord? hword
    cases h _ rfl

theorem Closes.head?_ne (h : Closes rest) {m : Mark} (hm : m ≠ .closing) :
    rest.head? ≠ some (.mark m) := by
  intro hhead
  cases h _ hhead
  exact hm rfl

theorem headWord?_listTokens {i : ItemWords} (hne : i.parts ≠ []) (is : List ItemWords)
    (rest : List ImportToken) : ∃ w, headWord? (listTokens (i :: is) ++ rest) = some w := by
  obtain ⟨parts, asName⟩ := i
  obtain ⟨w, ws, rfl⟩ := List.exists_cons_of_ne_nil hne
  exact ⟨w, rfl⟩

theorem readItems_complete {is : List ItemWords} {comma : Bool} (hne : is ≠ [])
    (hparts : ∀ i ∈ is, i.parts ≠ [])
    (hk : k.rest = front (listTokens is ++ (commaTokens comma ++ rest)))
    (hts : ∀ t ∈ listTokens is ++ (commaTokens comma ++ rest), t.IsProper)
    (hrest : Closes rest) (hfuel : is.length ≤ fuel) :
    ∃ items trailing k', readItems e 0 fuel k = some (items, trailing, k') ∧
      items.map ImportItem.words = is ∧ trailing.isSome = comma ∧ k'.rest = behind rest := by
  -- along the items; only behind the last one a comma may be followed by no word
  induction is generalizing k fuel with
  | nil => exact absurd rfl hne
  | cons i is ih =>
    obtain ⟨hi, his⟩ := List.forall_mem_cons.mp hparts
    obtain ⟨fuel, rfl⟩ : ∃ n, fuel = n + 1 :=
      Nat.exists_eq_add_one.mpr (Nat.lt_of_lt_of_le (Nat.succ_pos _) hfuel)
    cases is with
    | nil =>
      have hlist : listTokens [i] = i.tokens := by simp [listTokens]
      rw [hlist] at hk hts
      have hts₁ := (List.forall_mem_append.mp hts).2
      cases comma with
      | false =>
        obtain ⟨item, k₁, hitem, hwords, hk₁⟩ := readItem_complete (e := e) hi hk hts
          (hrest.head?_ne (by simp)) (by simp [commaTokens, hrest.headWord?])
        exact ⟨[item], none, k₁, readItems_last hitem hk₁ hts₁ (hrest.head?_ne (by simp)),
          by rw [List.map_singleton, hwords], rfl, hk₁⟩
      | true =>
        obtain ⟨item, k₁, hitem, hwords, hk₁⟩ := readItem_complete (e := e) hi hk hts
          (by simp [commaTokens]) (by simp [commaTokens, headWord?])
        obtain ⟨pos, k₂, hk₂, hstep⟩ := readItems_comma hitem hk₁ (List.forall_mem_cons.mp hts₁).2
          hrest.headWord?
        exact ⟨[item], some pos, k₂, hstep fuel, by rw [List.map_singleton, hwords], rfl, hk₂⟩
    | cons j is =>
      rw [listTokens_cons i (List.cons_ne_nil j is), List.append_assoc, List.cons_append] at hk hts
      have hts₁ := (List.forall_mem_append.mp hts).2
      have hts₂ := (List.forall_mem_cons.mp hts₁).2
      obtain ⟨item, k₁, hitem, hwords, hk₁⟩ := readItem_complete (e := e) hi hk hts (by simp)
        (by simp [headWord?])
      obtain ⟨w, hword⟩ := headWord?_listTokens (List.forall_mem_cons.mp his).1 is
        (commaTokens comma ++ rest)
      obtain ⟨next, hnext, hstep⟩ := readItems_more hitem hk₁ hts₂ hword
      obtain ⟨items, trailing, k₂, hitems, hwords', htrailing, hk₂⟩ :=
        ih (List.cons_ne_nil j is) his hnext hts₂ (Nat.le_of_succ_le_succ hfuel)
      refine ⟨item :: items, trailing, k₂, ?_, by rw [List.map_cons, hwords, hwords'], htrailing,
        hk₂⟩
      simp only [hstep, hitems, Option.bind_some]

/-! ## Where a statement imports from -/

theorem dotsBetween_behind {next : Cursor} (hk : k.rest = behind ts)
    (hnext : next.rest = front ts) : dotsBetween k next = 0 := by
  have hlength : (behind ts).length - (front ts).length = 1 := by
    cases ts with
    | nil => rfl
    | cons t ts => simp [behind, front]
  rw [dotsBetween, hk, hnext, hlength]
  cases ts with
  | nil => rfl
  | cons t ts => rfl

theorem readDots_stop (hk : k.rest = front ts) (hts : ∀ t ∈ ts, t.IsProper)
    (hstop : ts.head? ≠ some (.mark .dot)) : readDots 0 fuel k = some (0, k) := by
  cases fuel with
  | zero => rfl
  | succ fuel =>
    have hdot : k.expectChar '.' = none := (expectChar_front hk hts .dot).trans (if_neg hstop)
    rw [readDots, hdot]

theorem readDots_dot (hk : k.rest = front (.mark .dot :: ts)) (hts : ∀ t ∈ ts, t.IsProper) :
    ∃ next : Cursor, next.rest = front ts ∧ ∀ fuel, readDots 0 (fuel + 1) k =
      (readDots 0 fuel next).map fun (n, last) => (n + 1, last) := by
  have hdot : k.expectChar '.' = some (k.advance 1) := expectChar_mark hk
  have hrest : (k.advance 1).rest = behind ts := rest_mark hk
  have htoken : (k.advance 1).token {} 0 = some ((k.advance 1).advance 1) :=
    token_behind hrest hts rfl
  have hbetween := dotsBetween_behind hrest (rest_blank hrest)
  refine ⟨(k.advance 1).advance 1, rest_blank hrest, fun fuel => ?_⟩
  rw [readDots, hdot]
  simp only [htoken, Option.bind_eq_bind, Option.bind_some, hbetween]
  cases readDots 0 fuel ((k.advance 1).advance 1) with
  | none => rfl
  | some r =>
    obtain ⟨n, last⟩ := r
    simp only [Option.bind_some, Option.map_some]
    split
    · next hn => rw [hn]
    · rw [Nat.add_zero, Nat.add_comm]

theorem readDots_sound {n : Nat} (hk : k.rest = front ts) (hts : ∀ t ∈ ts, t.IsProper)
    (h : readDots 0 fuel k = some (n, k')) :
    (ts.head? = some (.mark .dot) → 0 < fuel → 0 < n) ∧
      ∃ rest, ts = dotTokens n ++ rest ∧ k'.rest = front rest := by
  induction fuel generalizing k ts n with
  | zero =>
    cases h
    exact ⟨fun _ h => absurd h (Nat.lt_irrefl 0), ts, rfl, hk⟩
  | succ fuel ih =>
    by_cases hdot : ts.head? = some (.mark .dot)
    · obtain ⟨ts, rfl⟩ := List.head?_eq_some_iff.mp hdot
      have hts' := (List.forall_mem_cons.mp hts).2
      obtain ⟨next, hnext, hstep⟩ := readDots_dot hk hts'
      rw [hstep] at h
      obtain ⟨⟨m, last⟩, hmore, h⟩ := Option.map_eq_some_iff.mp h
      cases h
      obtain ⟨-, rest, rfl, hrest⟩ := ih hnext hts' hmore
      exact ⟨fun _ _ => Nat.succ_pos m, rest, rfl, hrest⟩
    · rw [readDots_stop hk hts hdot] at h
      cases h
      exact ⟨fun h => absurd h hdot, ts, rfl, hk⟩

theorem readDots_complete {n : Nat} (hk : k.rest = front (dotTokens n ++ rest))
    (hts : ∀ t ∈ dotTokens n ++ rest, t.IsProper) (hstop : rest.head? ≠ some (.mark .dot))
    (hfuel : n ≤ fuel) : ∃ k', readDots 0 fuel k = some (n, k') ∧ k'.rest = front rest := by
  induction n generalizing k fuel with
  | zero => exact ⟨k, readDots_stop hk hts hstop, hk⟩
  | succ n ih =>
    obtain ⟨fuel, rfl⟩ : ∃ n, fuel = n + 1 :=
      Nat.exists_eq_add_one.mpr (Nat.lt_of_lt_of_le (Nat.succ_pos _) hfuel)
    rw [dotTokens, List.replicate_succ, List.cons_append] at hk hts
    have hts' := (List.forall_mem_cons.mp hts).2
    obtain ⟨next, hnext, hstep⟩ := readDots_dot hk hts'
    obtain ⟨k₁, hmore, hk₁⟩ := ih hnext hts' (Nat.le_of_succ_le_succ hfuel)
    exact ⟨k₁, by rw [hstep, hmore]; rfl, hk₁⟩

/-- A dotted path and the token behind it. -/
theorem readPath_sound {d : DottedName} {k₁ : Cursor} (hk : k.rest = front ts)
    (hts : ∀ t ∈ ts, t.IsProper) (hd : readDotted {} 0 k = some (d, k₁))
    (htoken : k₁.token {} 0 = some k') :
    d.parts ≠ [] ∧ ∃ rest, ts = dottedTokens d.parts ++ rest ∧ k'.rest = front rest := by
  obtain ⟨hne, rest, rfl, hk₁⟩ := readDotted_sound hk hts hd
  rw [token_behind hk₁ (List.forall_mem_append.mp hts).2 rfl] at htoken
  cases htoken
  exact ⟨hne, rest, rfl, rest_blank hk₁⟩

theorem readPath_complete (hne : ws ≠ []) (hk : k.rest = front (dottedTokens ws ++ rest))
    (hts : ∀ t ∈ dottedTokens ws ++ rest, t.IsProper)
    (hstop : rest.head? ≠ some (.mark .dot)) :
    ∃ k₁ k', readDotted {} 0 k = some (⟨ws, k.pos⟩, k₁) ∧ k₁.token {} 0 = some k' ∧
      k'.rest = front rest := by
  obtain ⟨k₁, hd, hk₁⟩ := readDotted_complete hne hk hts hstop
  exact ⟨k₁, k₁.advance 1, hd, token_behind hk₁ (List.forall_mem_append.mp hts).2 rfl,
    rest_blank hk₁⟩

theorem readSource_sound {source : ImportSource} (hk : k.rest = front ts)
    (hts : ∀ t ∈ ts, t.IsProper) (h : readSource 0 k = some (source, k')) :
    ∃ dots path rest, source.words = (dots, path) ∧ (0 < dots ∨ path ≠ []) ∧
      ts = originTokens dots path ++ rest ∧ k'.rest = front rest := by
  rw [readSource] at h
  split at h
  · next hchar =>
    rw [hk] at hchar
    have hdot : ts.head? = some (.mark .dot) := (head?_front hts .dot).mp hchar
    have hfuel : 0 < k.rest.length := by
      rw [hk, List.length_pos_iff]
      intro hnil
      rw [hnil] at hchar
      cases hchar
    obtain ⟨⟨dots, next⟩, hdots, h⟩ := Option.bind_eq_some_iff.mp h
    obtain ⟨hcount, ts₁, rfl, hnext⟩ := readDots_sound hk hts hdots
    have hpos : 0 < dots := hcount hdot hfuel
    simp only at h
    split at h
    · cases h
      exact ⟨dots, [], ts₁, rfl, .inl hpos, by simp [originTokens, dottedTokens], hnext⟩
    · obtain ⟨⟨d, k₁⟩, hd, h⟩ := Option.bind_eq_some_iff.mp h
      obtain ⟨k₂, htoken, h⟩ := Option.bind_eq_some_iff.mp h
      cases h
      obtain ⟨-, rest, rfl, hrest⟩ :=
        readPath_sound hnext (List.forall_mem_append.mp hts).2 hd htoken
      exact ⟨dots, d.parts, rest, rfl, .inl hpos, by simp [originTokens], hrest⟩
  · split at h
    · next hfuture =>
      rw [hk, word?_front hts] at hfuture
      obtain ⟨ts, rfl⟩ := eq_cons_of_headWord? hfuture
      exact absurd rfl (hts _ List.mem_cons_self).2
    · obtain ⟨⟨d, k₁⟩, hd, h⟩ := Option.bind_eq_some_iff.mp h
      obtain ⟨k₂, htoken, h⟩ := Option.bind_eq_some_iff.mp h
      cases h
      obtain ⟨hne, rest, rfl, hrest⟩ := readPath_sound hk hts hd htoken
      exact ⟨0, d.parts, rest, rfl, .inr hne, rfl, hrest⟩

theorem readSource_complete {dots : Nat} {path : List String} (hsome : 0 < dots ∨ path ≠ [])
    (himport : path.head? ≠ some "import")
    (hk : k.rest = front (originTokens dots path ++ .word "import" :: rest))
    (hts : ∀ t ∈ originTokens dots path ++ .word "import" :: rest, t.IsProper) :
    ∃ source k', readSource 0 k = some (source, k') ∧ source ≠ .future ∧
      source.words = (dots, path) ∧ k'.rest = front (.word "import" :: rest) := by
  rw [originTokens, List.append_assoc] at hk hts
  have hts₁ := (List.forall_mem_append.mp hts).2
  have hstop : (dottedTokens path ++ .word "import" :: rest).head? ≠ some (.mark .dot) := by
    cases path with
    | nil => simp [dottedTokens]
    | cons w ws => simp [dottedTokens]
  rw [readSource]
  cases dots with
  | zero =>
    have hne : path ≠ [] := hsome.resolve_left (Nat.lt_irrefl 0)
    obtain ⟨w, ws, rfl⟩ := List.exists_cons_of_ne_nil hne
    have hk : k.rest = front (dottedTokens (w :: ws) ++ .word "import" :: rest) := hk
    have hchar : k.rest.head? ≠ some '.' := by
      rw [hk]
      exact fun h => hstop ((head?_front hts₁ .dot).mp h)
    have hfuture : word? k.rest ≠ some "__future__" := by
      rw [hk, word?_front hts₁]
      intro h
      cases h
      exact (hts₁ _ List.mem_cons_self).2 rfl
    obtain ⟨k₁, k', hd, htoken, hk'⟩ := readPath_complete hne hk hts₁ (by simp)
    refine ⟨.absolute ⟨w :: ws, k.pos⟩, k', ?_, by simp, rfl, hk'⟩
    rw [if_neg hchar, if_neg hfuture, hd]
    simp only [Option.bind_eq_bind, Option.bind_some, htoken]
  | succ dots =>
    have hchar : k.rest.head? = some '.' := by rw [hk]; rfl
    have hfuel : dots + 1 ≤ k.rest.length := by
      have hall := length_le_front (dotTokens (dots + 1) ++ (dottedTokens path ++
        .word "import" :: rest))
      rw [List.length_append, dotTokens, List.length_replicate] at hall
      rw [hk]
      exact Nat.le_trans (Nat.le_add_right _ _) hall
    obtain ⟨next, hdots, hnext⟩ := readDots_complete hk hts hstop hfuel
    rw [if_pos hchar, hdots]
    simp only [Option.bind_eq_bind, Option.bind_some]
    cases path with
    | nil =>
      have hword : word? next.rest = some "import" := by
        rw [hnext, word?_front hts₁]
        rfl
      exact ⟨.relative (dots + 1) [] k.pos, next, if_pos hword, by simp, rfl, hnext⟩
    | cons w ws =>
      have hword : word? next.rest ≠ some "import" := by
        rw [hnext, word?_front hts₁]
        simpa [dottedTokens, headWord?] using himport
      obtain ⟨k₁, k', hd, htoken, hk'⟩ := readPath_complete (by simp) hnext hts₁ (by simp)
      refine ⟨.relative (dots + 1) (w :: ws) k.pos, k', ?_, by simp, rfl, hk'⟩
      rw [if_neg hword, hd]
      simp only [Option.bind_some, htoken]

/-! ## Statements -/

theorem readModules_sound {s : ImportStatement} {pos : Position} (hk : k.rest = behind ts)
    (hts : ∀ t ∈ ts, t.IsProper) (h : readModules 0 pos k = some (s, k')) :
    ∃ items bareComma rest, s = ⟨pos, .modules items, bareComma⟩ ∧ items ≠ [] ∧
      (∀ i ∈ items, i.words.parts ≠ []) ∧ k'.rest = behind rest ∧
      ts = listTokens (items.map ImportItem.words) ++ (commaTokens bareComma.isSome ++ rest) := by
  obtain ⟨k₁, htoken, h⟩ := Option.bind_eq_some_iff.mp h
  rw [token_behind hk hts rfl] at htoken
  cases htoken
  obtain ⟨⟨items, bareComma, k₂⟩, hitems, h⟩ := Option.bind_eq_some_iff.mp h
  cases h
  obtain ⟨hne, hparts, rest, hrest, hk'⟩ := readItems_sound (rest_blank hk) hts hitems
  exact ⟨items, bareComma, rest, rfl, hne, hparts, hk', hrest⟩

theorem length_le_listTokens {is : List ItemWords} (hparts : ∀ i ∈ is, i.parts ≠ []) :
    is.length ≤ (listTokens is).length := by
  induction is with
  | nil => exact Nat.le_refl 0
  | cons i is ih =>
    obtain ⟨hi, his⟩ := List.forall_mem_cons.mp hparts
    have htokens : 1 ≤ i.tokens.length := by
      obtain ⟨w, ws, hws⟩ := List.exists_cons_of_ne_nil hi
      simp [ItemWords.tokens, hws, dottedTokens]
    cases is with
    | nil => simpa [listTokens] using htokens
    | cons j is =>
      have hmore := ih his
      have hcomma : (ImportToken.mark .comma :: listTokens (j :: is)).length =
          (listTokens (j :: is)).length + 1 := rfl
      rw [listTokens_cons i (List.cons_ne_nil j is), List.length_append, hcomma, List.length_cons]
      omega

/-- A list that the line of tokens has room for is read whole. -/
theorem readList_complete {is : List ItemWords} (comma : Bool) (hne : is ≠ [])
    (hparts : ∀ i ∈ is, i.parts ≠ []) (hrest : Closes rest)
    (hk : k.rest = front (listTokens is ++ (commaTokens comma ++ rest)))
    (hts : ∀ t ∈ listTokens is ++ (commaTokens comma ++ rest), t.IsProper) :
    ∃ items trailing k', readItems e 0 k.rest.length k = some (items, trailing, k') ∧
      items.map ImportItem.words = is ∧ trailing.isSome = comma ∧ k'.rest = behind rest := by
  refine readItems_complete hne hparts hk hts hrest ?_
  have hlist := length_le_listTokens hparts
  have hall := length_le_front (listTokens is ++ (commaTokens comma ++ rest))
  rw [List.length_append] at hall
  rw [hk]
  omega

theorem Closes.nil : Closes [] :=
  fun _ h => nomatch h

theorem readBare_complete {is : List ItemWords} (hne : is ≠ []) (hparts : ∀ i ∈ is, i.parts ≠ [])
    (hk : k.rest = front (listTokens is)) (hts : ∀ t ∈ listTokens is, t.IsProper) :
    ∃ items k', readItems inLine 0 k.rest.length k = some (items, none, k') ∧
      items.map ImportItem.words = is ∧ k'.rest = behind [] := by
  have hall : listTokens is ++ (commaTokens false ++ []) = listTokens is := by simp [commaTokens]
  rw [← hall] at hk hts
  obtain ⟨items, trailing, k', hitems, hwords, htrailing, hk'⟩ :=
    readList_complete (e := inLine) false hne hparts Closes.nil hk hts
  obtain rfl : trailing = none := by simpa using htrailing
  exact ⟨items, k', hitems, hwords, hk'⟩

theorem readModules_complete {is : List ItemWords} (pos : Position) (hne : is ≠ [])
    (hparts : ∀ i ∈ is, i.parts ≠ []) (hk : k.rest = behind (listTokens is))
    (hts : ∀ t ∈ listTokens is, t.IsProper) :
    ∃ items k', readModules 0 pos k = some (⟨pos, .modules items, none⟩, k') ∧
      items.map ImportItem.words = is ∧ k'.rest = behind [] := by
  have htoken : k.token {} 0 = some (k.advance 1) := token_behind hk hts rfl
  obtain ⟨items, k', hitems, hwords, hk'⟩ := readBare_complete hne hparts (rest_blank hk) hts
  refine ⟨items, k', ?_, hwords, hk'⟩
  rw [readModules, htoken]
  simp only [Option.bind_eq_bind, Option.bind_some, hitems]

theorem readListing_sound {s : ImportStatement} {pos : Position} {source : ImportSource}
    (hk : k.rest = front ts) (hts : ∀ t ∈ ts, t.IsProper)
    (h : readListing 0 pos source k = some (s, k')) :
    s.pos = pos ∧ ∃ (listing : Listing) (rest : List ImportToken),
      listing.Form source s.form ∧ k'.rest = behind rest ∧
      ts = listing.tokens ++ (commaTokens s.bareComma.isSome ++ rest) := by
  rw [readListing] at h
  split at h
  · next k₁ hstar =>
    obtain ⟨rest, rfl, hk₁⟩ := exists_of_expectChar (m := .star) hk hts hstar
    split at h
    · cases h
    · cases h
      exact ⟨rfl, .all, rest, rfl, hk₁, rfl⟩
  · split at h
    · next k₁ hopening =>
      obtain ⟨ts₁, rfl, hk₁⟩ := exists_of_expectChar (m := .opening) hk hts hopening
      have hts₁ := (List.forall_mem_cons.mp hts).2
      obtain ⟨k₂, htoken, h⟩ := Option.bind_eq_some_iff.mp h
      rw [token_behind hk₁ hts₁ rfl] at htoken
      cases htoken
      obtain ⟨⟨items, comma, k₃⟩, hitems, h⟩ := Option.bind_eq_some_iff.mp h
      obtain ⟨hne, -, ts₂, rfl, hk₃⟩ := readItems_sound (rest_blank hk₁) hts₁ hitems
      have hts₂ := (List.forall_mem_append.mp (List.forall_mem_append.mp hts₁).2).2
      obtain ⟨k₄, htoken, h⟩ := Option.bind_eq_some_iff.mp h
      rw [token_behind hk₃ hts₂ rfl] at htoken
      cases htoken
      obtain ⟨k₅, hclosing, h⟩ := Option.bind_eq_some_iff.mp h
      obtain ⟨rest, rfl, hk₅⟩ := exists_of_expectChar (m := .closing) (rest_blank hk₃) hts₂ hclosing
      cases h
      refine ⟨rfl, .enclosed (items.map ImportItem.words) comma.isSome, rest,
        ⟨by simpa using hne, items, rfl, rfl⟩, hk₅, ?_⟩
      simp [Listing.tokens, commaTokens]
    · obtain ⟨⟨items, bareComma, k₁⟩, hitems, h⟩ := Option.bind_eq_some_iff.mp h
      cases h
      obtain ⟨hne, -, rest, rfl, hk₁⟩ := readItems_sound hk hts hitems
      exact ⟨rfl, .bare (items.map ImportItem.words), rest, ⟨by simpa using hne, items, rfl, rfl⟩,
        hk₁, rfl⟩

theorem readMembers_sound {s : ImportStatement} {pos : Position} (hk : k.rest = behind ts)
    (hts : ∀ t ∈ ts, t.IsProper) (h : readMembers 0 pos k = some (s, k')) :
    s.pos = pos ∧ ∃ (source : ImportSource) (dots : Nat) (path : List String)
      (listing : Listing) (rest : List ImportToken), source.words = (dots, path) ∧
      (0 < dots ∨ path ≠ []) ∧ listing.Form source s.form ∧ k'.rest = behind rest ∧
      ts = originTokens dots path ++ .word "import" ::
        (listing.tokens ++ (commaTokens s.bareComma.isSome ++ rest)) := by
  obtain ⟨k₁, htoken, h⟩ := Option.bind_eq_some_iff.mp h
  rw [token_behind hk hts rfl] at htoken
  cases htoken
  obtain ⟨⟨source, k₂⟩, hsource, h⟩ := Option.bind_eq_some_iff.mp h
  obtain ⟨dots, path, ts₁, hwords, hsome, rfl, hk₂⟩ := readSource_sound (rest_blank hk) hts hsource
  have hts₁ := (List.forall_mem_append.mp hts).2
  obtain ⟨k₃, hword, h⟩ := Option.bind_eq_some_iff.mp h
  obtain ⟨ts₂, rfl, hk₃⟩ := exists_of_expectWord hk₂ hts₁ hword
  have hts₂ := (List.forall_mem_cons.mp hts₁).2
  obtain ⟨k₄, htoken, h⟩ := Option.bind_eq_some_iff.mp h
  rw [token_behind hk₃ hts₂ rfl] at htoken
  cases htoken
  obtain ⟨hpos, listing, rest, hform, hk', rfl⟩ := readListing_sound (rest_blank hk₃) hts₂ h
  exact ⟨hpos, source, dots, path, listing, rest, hwords, hsome, hform, hk', rfl⟩

/-- A list with items whose names have parts. -/
def Listing.Filled (listing : Listing) : Prop :=
  match listing with
  | .all => True
  | .bare is => is ≠ [] ∧ ∀ i ∈ is, i.parts ≠ []
  | .enclosed is _ => is ≠ [] ∧ ∀ i ∈ is, i.parts ≠ []

theorem readListing_complete {source : ImportSource} {listing : Listing} (pos : Position)
    (hsource : source ≠ .future) (hfilled : listing.Filled) (hk : k.rest = front listing.tokens)
    (hts : ∀ t ∈ listing.tokens, t.IsProper) :
    ∃ form k', readListing 0 pos source k = some (⟨pos, form, none⟩, k') ∧
      listing.Form source form ∧ k'.rest = behind [] := by
  rw [readListing]
  cases listing with
  | all =>
    have hstar : k.expectChar '*' = some (k.advance 1) := expectChar_mark (m := .star) hk
    refine ⟨.wildcard source, k.advance 1, ?_, rfl, rest_mark (m := .star) hk⟩
    simp only [hstar, if_neg hsource]
  | bare is =>
    obtain ⟨hne, hparts⟩ := hfilled
    have hmark : ∀ m : Mark, k.expectChar m.char = none := by
      intro m
      rw [expectChar_front hk hts, if_neg]
      obtain ⟨i, is, rfl⟩ := List.exists_cons_of_ne_nil hne
      obtain ⟨w, hw⟩ := headWord?_listTokens (List.forall_mem_cons.mp hparts).1 is []
      rw [List.append_nil] at hw
      obtain ⟨ts, hts⟩ := eq_cons_of_headWord? hw
      simp [Listing.tokens, hts]
    have hstar : k.expectChar '*' = none := hmark .star
    have hopening : k.expectChar '(' = none := hmark .opening
    obtain ⟨items, k', hitems, hwords, hk'⟩ := readBare_complete hne hparts hk hts
    refine ⟨.members source items, k', ?_, ⟨hne, items, rfl, hwords⟩, hk'⟩
    simp only [hstar, hopening, hitems, Option.bind_eq_bind, Option.bind_some]
  | enclosed is comma =>
    obtain ⟨hne, hparts⟩ := hfilled
    have hstar : k.expectChar '*' = none :=
      (expectChar_front hk hts .star).trans (if_neg (by simp [Listing.tokens]))
    have hopening : k.expectChar '(' = some (k.advance 1) := expectChar_mark (m := .opening) hk
    have hk₁ := rest_mark (m := .opening) hk
    have hts₁ := (List.forall_mem_cons.mp hts).2
    have htoken : (k.advance 1).token {} 0 = some ((k.advance 1).advance 1) :=
      token_behind hk₁ hts₁ rfl
    have hcloses : Closes [.mark .closing] := by simp [Closes]
    obtain ⟨items, trailing, k₂, hitems, hwords, -, hk₂⟩ :=
      readList_complete (e := inParentheses) comma hne hparts hcloses (rest_blank hk₁) hts₁
    have hts₂ := (List.forall_mem_append.mp (List.forall_mem_append.mp hts₁).2).2
    have htoken₂ : k₂.token inParentheses 0 = some (k₂.advance 1) := token_behind hk₂ hts₂ rfl
    have hclosing : (k₂.advance 1).expectChar ')' = some ((k₂.advance 1).advance 1) :=
      expectChar_mark (m := .closing) (rest_blank hk₂)
    refine ⟨.members source items, (k₂.advance 1).advance 1, ?_, ⟨hne, items, rfl, hwords⟩,
      rest_mark (m := .closing) (rest_blank hk₂)⟩
    simp only [hstar, hopening, htoken, hitems, htoken₂, hclosing, Option.bind_eq_bind,
      Option.bind_some]

theorem readMembers_complete {dots : Nat} {path : List String} {listing : Listing}
    (pos : Position) (hsome : 0 < dots ∨ path ≠ []) (himport : path.head? ≠ some "import")
    (hfilled : listing.Filled)
    (hk : k.rest = behind (originTokens dots path ++ .word "import" :: listing.tokens))
    (hts : ∀ t ∈ originTokens dots path ++ .word "import" :: listing.tokens, t.IsProper) :
    ∃ (source : ImportSource) (form : ImportForm) (k' : Cursor),
      readMembers 0 pos k = some (⟨pos, form, none⟩, k') ∧ source.words = (dots, path) ∧
      listing.Form source form ∧ k'.rest = behind [] := by
  have htoken : k.token {} 0 = some (k.advance 1) := token_behind hk hts rfl
  obtain ⟨source, k₁, hsource, hfuture, hwords, hk₁⟩ :=
    readSource_complete hsome himport (rest_blank hk) hts
  have hts₁ := (List.forall_mem_append.mp hts).2
  have hts₂ := (List.forall_mem_cons.mp hts₁).2
  have hword : k₁.expectWord "import" = some (k₁.advance 6) :=
    (expectWord_front hk₁ hts₁ "import").trans (if_pos rfl)
  have hk₂ : (k₁.advance 6).rest = behind listing.tokens := rest_word hk₁
  have htoken₂ : (k₁.advance 6).token {} 0 = some ((k₁.advance 6).advance 1) :=
    token_behind hk₂ hts₂ rfl
  obtain ⟨form, k', hlisting, hform, hk'⟩ :=
    readListing_complete pos hfuture hfilled (rest_blank hk₂) hts₂
  refine ⟨source, form, k', ?_, hwords, hform, hk'⟩
  rw [readMembers, htoken]
  simp only [Option.bind_eq_bind, Option.bind_some, hsource, hword, htoken₂, hlisting]

end Readers

end ImportContext.Source
