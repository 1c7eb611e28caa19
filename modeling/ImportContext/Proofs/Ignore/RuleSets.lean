import ImportContext.Ignore.RuleSet
import ImportContext.Proofs.Fallible
import ImportContext.Proofs.Path.Names

/-!
# Rule sets as sets of rules

A path is ignored when some rule of some pattern matches it or a directory above it. Which
patterns there are is all that counts: not their order, nor how often each is given.

Results:
* `ofPatterns_isOk_iff`, `mem_rules_iff`: which lists of patterns have a rule set, and its rules.
* `ofPatterns_plain`: no rule of a rule set is negated.
* `matchesNames_iff`: when an entry is ignored, by its names.
* `matchesNames_append`: whatever lies below an ignored directory is ignored.
* `ofPatterns_append_isOk_iff`, `matchesEntry_append`: two lists of patterns together.
* `ignored_by_membership`: union, order and directories together.
-/

namespace ImportContext

namespace IgnoreRuleSet

variable {rules : IgnoreRuleSet} {patterns : List String} {names : List String}

/-! ## Patterns -/

theorem mem_keptPatterns {s : String} :
    s ∈ keptPatterns patterns ↔ s ≠ "" ∧ ∃ pattern ∈ patterns, Text.trimEnd pattern = s := by
  simp [keptPatterns, List.mem_filter, and_comm]

theorem mem_keptPatterns_append {more : List String} {s : String} :
    s ∈ keptPatterns (patterns ++ more) ↔ s ∈ keptPatterns patterns ∨ s ∈ keptPatterns more := by
  simp only [mem_keptPatterns, List.mem_append, or_and_right, exists_or, and_or_left]

/-- Two lists hold the same patterns, each as often: blanks at the ends and blank patterns do not
count, nor does the order. -/
def Alike (patterns patterns' : List String) : Prop :=
  ((patterns.map Text.trimEnd).filter (· != "")).Perm
    ((patterns'.map Text.trimEnd).filter (· != ""))

theorem sorted_keptPatterns (patterns : List String) :
    (keptPatterns patterns).Pairwise (· ≤ ·) := by
  have hsorted : (keptPatterns patterns).Pairwise fun a b => decide (a ≤ b) = true := by
    refine List.pairwise_mergeSort ?_ ?_ _
    · simp only [decide_eq_true_eq]
      exact fun a b c => String.le_trans
    · simp only [Bool.or_eq_true, decide_eq_true_eq]
      exact String.le_total
  simpa only [decide_eq_true_eq] using hsorted

theorem keptPatterns_perm_filter (patterns : List String) :
    (keptPatterns patterns).Perm ((patterns.map Text.trimEnd).filter (· != "")) :=
  List.mergeSort_perm _ _

/-- The kept patterns are sorted, so it does not matter in which order they were given. -/
theorem keptPatterns_of_alike {patterns' : List String} (h : Alike patterns patterns') :
    keptPatterns patterns = keptPatterns patterns' := by
  have hperm : (keptPatterns patterns).Perm (keptPatterns patterns') :=
    ((keptPatterns_perm_filter patterns).trans h).trans (keptPatterns_perm_filter patterns').symm
  refine hperm.eq_of_pairwise ?_ (sorted_keptPatterns patterns) (sorted_keptPatterns patterns')
  exact fun a b _ _ => String.le_antisymm

theorem keptPatterns_perm {patterns' : List String} (h : patterns'.Perm patterns) :
    keptPatterns patterns' = keptPatterns patterns :=
  keptPatterns_of_alike ((h.map _).filter _)

/-! ## Rules -/

theorem ofPatterns_eq_ok_iff : ofPatterns patterns = .ok rules ↔
    ∃ groups, (standardPatterns ++ keptPatterns patterns).mapM compile = .ok groups ∧
      rules = ⟨keptPatterns patterns, groups.flatten⟩ := by
  rw [ofPatterns, bind_eq_ok_iff]
  constructor
  · rintro ⟨groups, hgroups, h⟩
    exact ⟨groups, hgroups, (Except.ok.inj h).symm⟩
  · rintro ⟨groups, hgroups, rfl⟩
    exact ⟨groups, hgroups, rfl⟩

/-- A list of patterns has a rule set if each pattern that is in force has rules. -/
theorem ofPatterns_isOk_iff : (∃ rules, ofPatterns patterns = .ok rules) ↔
    ∀ s ∈ standardPatterns ++ keptPatterns patterns, ∃ group, compile s = .ok group := by
  rw [← mapM_isOk_iff]
  constructor
  · rintro ⟨rules, h⟩
    obtain ⟨groups, hgroups, -⟩ := ofPatterns_eq_ok_iff.mp h
    exact ⟨groups, hgroups⟩
  · rintro ⟨groups, hgroups⟩
    exact ⟨_, ofPatterns_eq_ok_iff.mpr ⟨groups, hgroups, rfl⟩⟩

/-- The rules of a rule set are those of the patterns that are in force. -/
theorem mem_rules_iff (h : ofPatterns patterns = .ok rules) {rule : IgnoreRule} :
    rule ∈ rules.rules ↔ ∃ s ∈ standardPatterns ++ keptPatterns patterns, ∃ group,
      compile s = .ok group ∧ rule ∈ group := by
  obtain ⟨groups, hgroups, rfl⟩ := ofPatterns_eq_ok_iff.mp h
  simp only [List.mem_flatten, mem_of_mapM_eq_ok hgroups]
  constructor
  · rintro ⟨group, ⟨s, hs, hgroup⟩, hrule⟩
    exact ⟨s, hs, group, hgroup, hrule⟩
  · rintro ⟨s, hs, group, hgroup, hrule⟩
    exact ⟨group, ⟨s, hs, hgroup⟩, hrule⟩

/-- A rule set without negated rules. -/
def Plain (rules : IgnoreRuleSet) : Prop :=
  ∀ rule ∈ rules.rules, rule.negated = false

/-- Negated patterns are refused, so no rule of a pattern is negated. -/
theorem negated_of_compile {s : String} {group : List IgnoreRule} (h : compile s = .ok group)
    {rule : IgnoreRule} (hrule : rule ∈ group) : rule.negated = false := by
  unfold compile at h
  split at h
  · cases h
  next hmark =>
  have hnegation : IgnoreRule.dropNegation s.toList = (s.toList, false) := by
    unfold IgnoreRule.dropNegation
    split
    · next hs => simp [hs] at hmark
    · rfl
  split at h
  · next rule? hline =>
    cases h
    cases rule? with
    | none => simp at hrule
    | some r =>
      obtain rfl : rule = r := by simpa using hrule
      unfold IgnoreRule.ofLine at hline
      split at hline
      · cases hline
      · cases hline
      · rw [hnegation] at hline
        obtain ⟨glob, -, hrule⟩ := bind_eq_ok_iff.mp hline
        cases hrule
        rfl
  · cases h

theorem ofPatterns_plain (h : ofPatterns patterns = .ok rules) : rules.Plain := by
  intro rule hrule
  obtain ⟨s, -, group, hgroup, hrule⟩ := (mem_rules_iff h).mp hrule
  exact negated_of_compile hgroup hrule

/-! ## Places -/

/-- Some rule matches the place. -/
def Matched (rules : IgnoreRuleSet) (names : List String) (isDirectory : Bool) : Prop :=
  ∃ rule ∈ rules.rules, rule.matches (Path.ofPieces names).text.toUTF8.toList isDirectory = true

theorem isSome_ruleHere? {isDirectory : Bool} :
    (rules.ruleHere? names isDirectory).isSome = true ↔ rules.Matched names isDirectory := by
  rw [ruleHere?, List.find?_isSome]
  simp only [List.mem_reverse]
  rfl

theorem isSome_ruleAbove? {inner : List String} : (rules.ruleAbove? inner).isSome = true ↔
    ∃ above, above <:+ inner ∧ above ≠ inner ∧ rules.Matched above.reverse true := by
  induction inner with
  | nil => simp [ruleAbove?]
  | cons n inner ih =>
    rw [ruleAbove?, Option.isSome_or, Bool.or_eq_true, isSome_ruleHere?, ih]
    constructor
    · rintro (h | ⟨above, hsuffix, -, h⟩)
      · exact ⟨inner, List.suffix_cons n inner, by simp, h⟩
      · refine ⟨above, hsuffix.trans (List.suffix_cons n inner), ?_, h⟩
        rintro rfl
        have hle := hsuffix.length_le
        rw [List.length_cons] at hle
        omega
    · rintro ⟨above, hsuffix, hne, h⟩
      rcases List.suffix_cons_iff.mp hsuffix with rfl | hsuffix
      · exact absurd rfl hne
      · by_cases heq : above = inner
        · exact .inl (heq ▸ h)
        · exact .inr ⟨above, hsuffix, heq, h⟩

/-- Whichever rule decides, it is one of the rule set. -/
theorem mem_of_ruleAbove? {inner : List String} {rule : IgnoreRule}
    (h : rules.ruleAbove? inner = some rule) : rule ∈ rules.rules := by
  induction inner with
  | nil => cases h
  | cons n inner ih =>
    rw [ruleAbove?, Option.or_eq_some_iff] at h
    rcases h with h | ⟨-, h⟩
    · exact List.mem_reverse.mp (List.mem_of_find?_eq_some h)
    · exact ih h

/-- Without negated rules an entry is ignored when some rule matches it, or matches a directory
above it. -/
theorem matchesNames_iff (hplain : rules.Plain) {isDirectory : Bool} :
    rules.matchesNames names isDirectory = true ↔
      names ≠ [] ∧ (rules.Matched names isDirectory ∨
        ∃ above, above <+: names ∧ above ≠ names ∧ rules.Matched above true) := by
  have hdecides : rules.matchesNames names isDirectory = true ↔ names ≠ [] ∧
      ((rules.ruleHere? names isDirectory).or (rules.ruleAbove? names.reverse)).isSome = true := by
    cases names with
    | nil => simp [matchesNames]
    | cons n names =>
      simp only [matchesNames]
      cases hrule : (rules.ruleHere? (n :: names) isDirectory).or
          (rules.ruleAbove? (n :: names).reverse) with
      | none => simp
      | some rule =>
        have hmem : rule ∈ rules.rules := by
          rcases Option.or_eq_some_iff.mp hrule with h | ⟨-, h⟩
          · exact List.mem_reverse.mp (List.mem_of_find?_eq_some h)
          · exact mem_of_ruleAbove? h
        simp [hplain rule hmem]
  rw [hdecides, Option.isSome_or, Bool.or_eq_true, isSome_ruleHere?, isSome_ruleAbove?]
  refine and_congr Iff.rfl (or_congr Iff.rfl ⟨?_, ?_⟩)
  · rintro ⟨above, hsuffix, hne, h⟩
    refine ⟨above.reverse, ?_, ?_, h⟩
    · rwa [← List.reverse_suffix, List.reverse_reverse]
    · intro heq
      exact hne (by rw [← heq, List.reverse_reverse])
  · rintro ⟨above, hprefix, hne, h⟩
    refine ⟨above.reverse, List.reverse_suffix.mpr hprefix, ?_, by rwa [List.reverse_reverse]⟩
    intro heq
    exact hne (List.reverse_inj.mp heq)

/-- Whatever lies below an ignored directory is ignored. -/
theorem matchesNames_append (hplain : rules.Plain) {more : List String} (hmore : more ≠ [])
    (h : rules.matchesNames names true = true) (isDirectory : Bool) :
    rules.matchesNames (names ++ more) isDirectory = true := by
  obtain ⟨hne, hhere⟩ := (matchesNames_iff hplain).mp h
  refine (matchesNames_iff hplain).mpr ⟨by simp [hne], .inr ?_⟩
  rcases hhere with hhere | ⟨above, hprefix, -, hhere⟩
  · exact ⟨names, List.prefix_append _ _, by simpa using Ne.symm hmore, hhere⟩
  · refine ⟨above, hprefix.trans (List.prefix_append _ _), ?_, hhere⟩
    rintro rfl
    have hle := hprefix.length_le
    have hpos : 0 < more.length := List.length_pos_iff.mpr hmore
    rw [List.length_append] at hle
    omega

/-- An entry that is ignored is so by a single rule, in every rule set that has it. -/
theorem exists_rule (hplain : rules.Plain) {isDirectory : Bool}
    (h : rules.matchesNames names isDirectory = true) :
    ∃ rule ∈ rules.rules, ∀ rules' : IgnoreRuleSet, rules'.Plain → rule ∈ rules'.rules →
      rules'.matchesNames names isDirectory = true := by
  obtain ⟨hne, ⟨rule, hrule, hmatch⟩ | ⟨above, hprefix, hproper, rule, hrule, hmatch⟩⟩ :=
    (matchesNames_iff hplain).mp h
  · refine ⟨rule, hrule, fun rules' hplain' hrule' => ?_⟩
    exact (matchesNames_iff hplain').mpr ⟨hne, .inl ⟨rule, hrule', hmatch⟩⟩
  · refine ⟨rule, hrule, fun rules' hplain' hrule' => ?_⟩
    exact (matchesNames_iff hplain').mpr
      ⟨hne, .inr ⟨above, hprefix, hproper, rule, hrule', hmatch⟩⟩

end IgnoreRuleSet

/-- The path goes through all names of the directory and then through further ones. -/
def Path.Below (p d : Path) : Prop :=
  d.names <+: p.names ∧ p.names ≠ d.names

theorem Path.join_below {d rest : Path} (habsolute : rest.isAbsolute = false)
    (hnames : rest.names ≠ []) : (d.join rest).Below d := by
  rw [Path.Below, Path.names_join habsolute]
  exact ⟨List.prefix_append _ _, by simpa using hnames⟩

namespace IgnoreRuleSet

theorem mem_rules_append {P Q : List String} {both p q : IgnoreRuleSet}
    (hboth : ofPatterns (P ++ Q) = .ok both) (hp : ofPatterns P = .ok p)
    (hq : ofPatterns Q = .ok q) {rule : IgnoreRule} :
    rule ∈ both.rules ↔ rule ∈ p.rules ∨ rule ∈ q.rules := by
  rw [mem_rules_iff hboth, mem_rules_iff hp, mem_rules_iff hq]
  simp only [List.mem_append, mem_keptPatterns_append]
  constructor
  · rintro ⟨s, hs | hs | hs, hgroup⟩
    · exact .inl ⟨s, .inl hs, hgroup⟩
    · exact .inl ⟨s, .inr hs, hgroup⟩
    · exact .inr ⟨s, .inr hs, hgroup⟩
  · rintro (⟨s, hs | hs, hgroup⟩ | ⟨s, hs | hs, hgroup⟩)
    · exact ⟨s, .inl hs, hgroup⟩
    · exact ⟨s, .inr (.inl hs), hgroup⟩
    · exact ⟨s, .inl hs, hgroup⟩
    · exact ⟨s, .inr (.inr hs), hgroup⟩

theorem mem_rules_of_subset {P Q : List String} {p q : IgnoreRuleSet} (hsubset : P ⊆ Q)
    (hp : ofPatterns P = .ok p) (hq : ofPatterns Q = .ok q) {rule : IgnoreRule}
    (h : rule ∈ p.rules) : rule ∈ q.rules := by
  rw [mem_rules_iff hp] at h
  rw [mem_rules_iff hq]
  obtain ⟨s, hs, hgroup⟩ := h
  refine ⟨s, ?_, hgroup⟩
  rcases List.mem_append.mp hs with hs | hs
  · exact List.mem_append_left _ hs
  · obtain ⟨hne, pattern, hpattern, htrim⟩ := mem_keptPatterns.mp hs
    exact List.mem_append_right _ (mem_keptPatterns.mpr ⟨hne, pattern, hsubset hpattern, htrim⟩)

/-- Two lists of patterns have a rule set together if each has one. -/
theorem ofPatterns_append_isOk_iff {P Q : List String} :
    (∃ both, ofPatterns (P ++ Q) = .ok both) ↔
      (∃ p, ofPatterns P = .ok p) ∧ ∃ q, ofPatterns Q = .ok q := by
  simp only [ofPatterns_isOk_iff, List.mem_append, mem_keptPatterns_append]
  constructor
  · intro h
    exact ⟨fun s hs => h s (hs.imp_right .inl), fun s hs => h s (hs.imp_right .inr)⟩
  · rintro ⟨hp, hq⟩ s (hs | hs | hs)
    · exact hp s (.inl hs)
    · exact hp s (.inr hs)
    · exact hq s (.inr hs)

/-- A rule set with all rules of another one ignores what that does. -/
theorem matchesEntry_of_subset {p q : IgnoreRuleSet} (hp : p.Plain) (hq : q.Plain)
    (hrules : ∀ rule ∈ p.rules, rule ∈ q.rules) {path : Path} {isDirectory : Bool}
    (h : p.matchesEntry path isDirectory = true) : q.matchesEntry path isDirectory = true := by
  obtain ⟨rule, hrule, hignores⟩ := exists_rule hp h
  exact hignores q hq (hrules rule hrule)

/-- Two lists of patterns together ignore what one of them does. -/
theorem matchesEntry_append {P Q : List String} {both p q : IgnoreRuleSet}
    (hboth : ofPatterns (P ++ Q) = .ok both) (hp : ofPatterns P = .ok p)
    (hq : ofPatterns Q = .ok q) (path : Path) (isDirectory : Bool) :
    both.matchesEntry path isDirectory =
      (p.matchesEntry path isDirectory || q.matchesEntry path isDirectory) := by
  have hplain := ofPatterns_plain hboth
  rw [Bool.eq_iff_iff, Bool.or_eq_true]
  constructor
  · intro h
    obtain ⟨rule, hrule, hignores⟩ := exists_rule hplain h
    rcases (mem_rules_append hboth hp hq).mp hrule with hrule | hrule
    · exact .inl (hignores p (ofPatterns_plain hp) hrule)
    · exact .inr (hignores q (ofPatterns_plain hq) hrule)
  · rintro (h | h)
    · refine matchesEntry_of_subset (ofPatterns_plain hp) hplain ?_ h
      exact fun rule hrule => (mem_rules_append hboth hp hq).mpr (.inl hrule)
    · refine matchesEntry_of_subset (ofPatterns_plain hq) hplain ?_ h
      exact fun rule hrule => (mem_rules_append hboth hp hq).mpr (.inr hrule)

theorem ofPatterns_perm {P P' : List String} (hperm : P'.Perm P) :
    ofPatterns P' = ofPatterns P := by
  rw [ofPatterns, ofPatterns, keptPatterns_perm hperm]

/-- Whatever path leads below an ignored directory is ignored. -/
theorem matchesEntry_below {rules : IgnoreRuleSet} (hplain : rules.Plain) {d path : Path}
    (h : rules.matchesEntry d true = true) (hbelow : path.Below d) (isDirectory : Bool) :
    rules.matchesEntry path isDirectory = true := by
  obtain ⟨⟨more, hmore⟩, hne⟩ := hbelow
  have hmore' : more ≠ [] := by
    rintro rfl
    exact hne (by rw [← hmore, List.append_nil])
  rw [matchesEntry, ← hmore]
  exact matchesNames_append hplain hmore' h isDirectory

end IgnoreRuleSet

open IgnoreRuleSet in
/-- What a list of patterns ignores is a matter of which patterns are in it. Two lists have a rule
set together if each has one, and then ignore what one of them does; so more patterns ignore
more, and to repeat a pattern changes nothing. The order of the patterns has no part in the
outcome, be it a rule set or an error. What lies below an ignored directory is ignored. -/
theorem ignored_by_membership (P Q : List String) :
    ((∃ both, ofPatterns (P ++ Q) = .ok both) ↔
      (∃ p, ofPatterns P = .ok p) ∧ ∃ q, ofPatterns Q = .ok q) ∧
    (∀ both p q, ofPatterns (P ++ Q) = .ok both → ofPatterns P = .ok p → ofPatterns Q = .ok q →
      ∀ path isDirectory, both.matchesEntry path isDirectory =
        (p.matchesEntry path isDirectory || q.matchesEntry path isDirectory)) ∧
    (∀ p q, ofPatterns P = .ok p → ofPatterns Q = .ok q → P ⊆ Q → ∀ path isDirectory,
      p.matchesEntry path isDirectory = true → q.matchesEntry path isDirectory = true) ∧
    (∀ P', P'.Perm P → ofPatterns P' = ofPatterns P) ∧
    ∀ p, ofPatterns P = .ok p → ∀ d, p.matchesEntry d true = true →
      ∀ path, path.Below d → ∀ isDirectory, p.matchesEntry path isDirectory = true := by
  refine ⟨ofPatterns_append_isOk_iff, ?_, ?_, fun P' => ofPatterns_perm, ?_⟩
  · intro both p q hboth hp hq
    exact matchesEntry_append hboth hp hq
  · intro p q hp hq hsubset path isDirectory
    exact matchesEntry_of_subset (ofPatterns_plain hp) (ofPatterns_plain hq)
      fun rule => mem_rules_of_subset hsubset hp hq
  · intro p hp d h path hbelow
    exact matchesEntry_below (ofPatterns_plain hp) h hbelow

namespace IgnoreRuleSet

/-- The standard patterns have a rule set. -/
theorem standardRules : ∃ rules, ofPatterns [] = .ok rules ∧
    (!rules.matches ⟨"pkg/mod.py"⟩ && rules.matches ⟨"build/mod.py"⟩) = true :=
  exists_ok_of_any (by decide +kernel)

/-- Of further patterns only those that are kept have to be looked at. -/
theorem ofPatterns_isOk {patterns : List String}
    (h : ∀ s ∈ keptPatterns patterns, (compile s).toOption.isSome = true) :
    ∃ rules, ofPatterns patterns = .ok rules := by
  obtain ⟨rules, hrules, -⟩ := standardRules
  have hstandard := ofPatterns_isOk_iff.mp ⟨rules, hrules⟩
  refine ofPatterns_isOk_iff.mpr fun s hs => ?_
  rcases List.mem_append.mp hs with hs | hs
  · exact hstandard s (List.mem_append_left _ hs)
  · obtain ⟨group, hgroup⟩ := Option.isSome_iff_exists.mp (h s hs)
    exact ⟨group, eq_ok_of_toOption hgroup⟩

/-- One kept pattern is enough to ignore an entry. -/
theorem matchesEntry_of_pattern {patterns : List String} {rules : IgnoreRuleSet}
    (h : ofPatterns patterns = .ok rules) {s : String} (hs : s ∈ keptPatterns patterns)
    {path : Path} {isDirectory : Bool} (hne : path.names ≠ [])
    (hmatch : (compile s).toOption.any (fun group => group.any fun rule =>
      rule.matches (Path.ofPieces path.names).text.toUTF8.toList isDirectory) = true) :
    rules.matchesEntry path isDirectory = true := by
  obtain ⟨group, hgroup, hany⟩ := exists_ok_of_any hmatch
  obtain ⟨rule, hrule, hmatch⟩ := List.any_eq_true.mp hany
  refine (matchesNames_iff (ofPatterns_plain h)).mpr ⟨hne, .inl ⟨rule, ?_, hmatch⟩⟩
  exact (mem_rules_iff h).mpr ⟨s, List.mem_append_right _ hs, group, hgroup, hrule⟩

end IgnoreRuleSet

open IgnoreRuleSet in
theorem ignored_by_membership_output : ∃ both p q,
    ofPatterns (["out/"] ++ ["*.gen"]) = .ok both ∧ ofPatterns ["out/"] = .ok p ∧
    ofPatterns ["*.gen"] = .ok q ∧ p.matchesEntry ⟨"out"⟩ true = true ∧
    ∀ rest : Path, rest.isAbsolute = false → rest.names ≠ [] → ∀ isDirectory,
      both.matchesEntry (Path.join ⟨"out"⟩ rest) isDirectory = true := by
  obtain ⟨hok, happend, -, -, hbelow⟩ := ignored_by_membership ["out/"] ["*.gen"]
  obtain ⟨p, hp⟩ : ∃ p, ofPatterns ["out/"] = .ok p := ofPatterns_isOk (by decide +kernel)
  obtain ⟨q, hq⟩ : ∃ q, ofPatterns ["*.gen"] = .ok q := ofPatterns_isOk (by decide +kernel)
  obtain ⟨both, hboth⟩ := hok.mpr ⟨⟨p, hp⟩, ⟨q, hq⟩⟩
  have hout : p.matchesEntry ⟨"out"⟩ true = true :=
    matchesEntry_of_pattern hp (s := "out/") (by decide +kernel) (by decide +kernel)
      (by decide +kernel)
  refine ⟨both, p, q, hboth, hp, hq, hout, fun rest habsolute hne isDirectory => ?_⟩
  rw [happend both p q hboth hp hq, Bool.or_eq_true]
  exact .inl (hbelow p hp ⟨"out"⟩ hout _ (Path.join_below habsolute hne) isDirectory)

end ImportContext
