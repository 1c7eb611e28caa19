import ImportContext.Ignore.Cache
import ImportContext.Proofs.Ignore.RuleSets
import Mathlib.Data.List.Induction
import Mathlib.Data.List.Nodup

/-!
# Calls of the cache of rule sets

A call of the cache compiles its patterns, so it fails as compiling fails, and then returns the
entry that is kept under the sorted patterns. That entry may have been compiled from another list
by an earlier call. Since every entry was compiled from some list with the sorted patterns it is
kept under, and a rule set depends on these alone, nobody can tell.

Results:
* `call_cases`: what one call does.
* `Canonical.call`, `canonical_afterCalls`: under which patterns the entries are kept.
* `Canonical.answer`: a call returns what compiling its patterns gives.
* `cached_rule_sets`: any sequence of calls, and the sharing of entries.
-/

namespace ImportContext

namespace IgnoreRuleSet

theorem extra_of_ofPatterns {patterns : List String} {rules : IgnoreRuleSet}
    (h : ofPatterns patterns = .ok rules) : rules.extra = keptPatterns patterns := by
  obtain ⟨groups, -, rfl⟩ := ofPatterns_eq_ok_iff.mp h
  rfl

/-- Only the kept patterns count for a rule set, or for the error that stands in its place. -/
theorem ofPatterns_of_kept {patterns patterns' : List String}
    (h : keptPatterns patterns = keptPatterns patterns') :
    ofPatterns patterns = ofPatterns patterns' := by
  unfold ofPatterns
  rw [h]

end IgnoreRuleSet

open IgnoreRuleSet

namespace RuleCache

/-! ## One call -/

/-- The answer in a result and the cache behind it. A call that fails has no cache of its own, so
the one before it stays. -/
def outcome (cache : RuleCache) :
    Except IgnoreError (IgnoreRuleSet × RuleCache) → Except IgnoreError IgnoreRuleSet × RuleCache
  | .ok (rules, next) => (.ok rules, next)
  | .error e => (.error e, cache)

def call (cache : RuleCache) (patterns : List String) :
    Except IgnoreError IgnoreRuleSet × RuleCache :=
  cache.outcome (cache.get patterns)

variable {cache : RuleCache} {patterns patterns' : List String} {asked : List (List String)}
  {rules : IgnoreRuleSet} {e : IgnoreError}

theorem call_of_error (cache : RuleCache) (h : ofPatterns patterns = .error e) :
    cache.call patterns = (.error e, cache) := by
  unfold call get
  rw [h]
  rfl

theorem call_of_known (h : ofPatterns patterns = .ok rules) {known : IgnoreRuleSet}
    (hlookup : cache.entries.lookup (keptPatterns patterns) = some known) :
    cache.call patterns = (.ok known, cache) := by
  unfold call get
  rw [h]
  simp only [bind, Except.bind, extra_of_ofPatterns h, hlookup]
  rfl

theorem call_of_new (h : ofPatterns patterns = .ok rules)
    (hlookup : cache.entries.lookup (keptPatterns patterns) = none) :
    cache.call patterns = (.ok rules, ⟨(keptPatterns patterns, rules) :: cache.entries⟩) := by
  unfold call get
  rw [h]
  simp only [bind, Except.bind, extra_of_ofPatterns h, hlookup]
  rfl

/-- A call fails, or finds an entry, or adds one. -/
theorem call_cases (cache : RuleCache) (patterns : List String) :
    (∃ e, ofPatterns patterns = .error e ∧ cache.call patterns = (.error e, cache)) ∨
    (∃ known, (∃ fresh, ofPatterns patterns = .ok fresh) ∧
      (keptPatterns patterns, known) ∈ cache.entries ∧
      cache.call patterns = (.ok known, cache)) ∨
    ∃ fresh, ofPatterns patterns = .ok fresh ∧
      (∀ rules, (keptPatterns patterns, rules) ∉ cache.entries) ∧
      cache.call patterns = (.ok fresh, ⟨(keptPatterns patterns, fresh) :: cache.entries⟩) := by
  rcases hfresh : ofPatterns patterns with e | fresh
  · exact .inl ⟨e, rfl, call_of_error cache hfresh⟩
  · rcases hlookup : cache.entries.lookup (keptPatterns patterns) with _ | known
    · refine .inr (.inr ⟨fresh, rfl, ?_, call_of_new hfresh hlookup⟩)
      intro rules hmem
      have hne := List.lookup_eq_none_iff.mp hlookup _ hmem
      simp at hne
    · obtain ⟨newer, older, hentries, -⟩ := List.lookup_eq_some_iff.mp hlookup
      exact .inr (.inl ⟨known, ⟨fresh, rfl⟩, by simp [hentries],
        call_of_known hfresh hlookup⟩)

/-- A call never takes an entry away. -/
theorem entries_suffix_call (cache : RuleCache) (patterns : List String) :
    cache.entries <:+ (cache.call patterns).2.entries := by
  rcases call_cases cache patterns with
    ⟨e, -, hcall⟩ | ⟨known, -, -, hcall⟩ | ⟨fresh, -, -, hcall⟩
  · simp only [hcall, List.suffix_refl]
  · simp only [hcall, List.suffix_refl]
  · simp only [hcall, List.suffix_cons]

/-- What a call returns is the entry that is kept under its patterns from then on. -/
theorem mem_of_call (h : (cache.call patterns).1 = .ok rules) :
    (keptPatterns patterns, rules) ∈ (cache.call patterns).2.entries := by
  rcases call_cases cache patterns with
    ⟨e, -, hcall⟩ | ⟨known, -, hmem, hcall⟩ | ⟨fresh, -, -, hcall⟩
  · rw [hcall] at h
    cases h
  · rw [hcall] at h ⊢
    cases h
    exact hmem
  · rw [hcall] at h ⊢
    cases h
    exact List.mem_cons_self

/-! ## Entries -/

/-- Each entry was compiled from a list that was asked for, and is kept under the sorted patterns of
that list; no patterns have two entries. -/
structure Canonical (asked : List (List String)) (cache : RuleCache) : Prop where
  kept : ∀ key rules, (key, rules) ∈ cache.entries →
    ∃ patterns ∈ asked, ofPatterns patterns = .ok rules ∧ key = keptPatterns patterns
  nodup : (cache.entries.map Prod.fst).Nodup

theorem canonical_empty : Canonical [] {} where
  kept := by
    intro key rules hmem
    cases hmem
  nodup := List.nodup_nil

theorem Canonical.mono (h : Canonical asked cache) {more : List (List String)}
    (hsub : asked ⊆ more) : Canonical more cache where
  kept := by
    intro key rules hmem
    obtain ⟨patterns, hpatterns, hrules, hkey⟩ := h.kept key rules hmem
    exact ⟨patterns, hsub hpatterns, hrules, hkey⟩
  nodup := h.nodup

/-- An entry is the rule set of every list with the patterns that it is kept under. -/
theorem Canonical.ofPatterns_of_mem (h : Canonical asked cache)
    (hmem : (keptPatterns patterns, rules) ∈ cache.entries) : ofPatterns patterns = .ok rules := by
  obtain ⟨earlier, -, hrules, hkey⟩ := h.kept _ _ hmem
  rw [ofPatterns_of_kept hkey, hrules]

theorem Canonical.call (h : Canonical asked cache) (patterns : List String) :
    Canonical (asked ++ [patterns]) (cache.call patterns).2 := by
  have hmore : Canonical (asked ++ [patterns]) cache := h.mono (List.subset_append_left _ _)
  rcases call_cases cache patterns with
    ⟨e, -, hcall⟩ | ⟨known, -, -, hcall⟩ | ⟨fresh, hfresh, habsent, hcall⟩
  · rwa [hcall]
  · rwa [hcall]
  · rw [hcall]
    constructor
    · intro key rules hmem
      rcases List.mem_cons.mp hmem with hnew | hold
      · cases hnew
        exact ⟨patterns, by simp, hfresh, rfl⟩
      · exact hmore.kept key rules hold
    · have hkey : keptPatterns patterns ∉ cache.entries.map Prod.fst := by
        intro hkey
        obtain ⟨⟨key, rules⟩, hentry, rfl⟩ := List.mem_map.mp hkey
        exact habsent rules hentry
      rw [List.map_cons]
      exact List.nodup_cons.mpr ⟨hkey, h.nodup⟩

/-- A call returns what compiling its patterns gives. -/
theorem Canonical.answer (h : Canonical asked cache) (patterns : List String) :
    (cache.call patterns).1 = ofPatterns patterns := by
  rcases call_cases cache patterns with
    ⟨e, herror, hcall⟩ | ⟨known, -, hmem, hcall⟩ | ⟨fresh, hfresh, -, hcall⟩
  · rw [hcall, herror]
  · rw [hcall, h.ofPatterns_of_mem hmem]
  · rw [hcall, hfresh]

/-- Where there is an entry, a call returns it and adds none. -/
theorem Canonical.call_eq (h : Canonical asked cache)
    (hmem : (keptPatterns patterns, rules) ∈ cache.entries) :
    cache.call patterns = (.ok rules, cache) := by
  have hanswer : (cache.call patterns).1 = .ok rules :=
    (h.answer patterns).trans (h.ofPatterns_of_mem hmem)
  rcases call_cases cache patterns with
    ⟨e, -, hcall⟩ | ⟨known, -, -, hcall⟩ | ⟨fresh, -, habsent, -⟩
  · rw [hcall] at hanswer
    cases hanswer
  · rw [hcall] at hanswer ⊢
    cases hanswer
    rfl
  · exact absurd hmem (habsent rules)

/-! ## Sequences of calls -/

/-- The cache behind some calls. -/
def afterCalls (cache : RuleCache) (calls : List (List String)) : RuleCache :=
  calls.foldl (fun cache patterns => (cache.call patterns).2) cache

theorem afterCalls_cons (cache : RuleCache) (patterns : List String) (calls : List (List String)) :
    cache.afterCalls (patterns :: calls) = (cache.call patterns).2.afterCalls calls := by
  unfold afterCalls
  rw [List.foldl_cons]

theorem afterCalls_append (cache : RuleCache) (calls more : List (List String)) :
    cache.afterCalls (calls ++ more) = (cache.afterCalls calls).afterCalls more := by
  unfold afterCalls
  rw [List.foldl_append]

theorem afterCalls_concat (cache : RuleCache) (calls : List (List String))
    (patterns : List String) :
    cache.afterCalls (calls ++ [patterns]) = ((cache.afterCalls calls).call patterns).2 := by
  unfold afterCalls
  rw [List.foldl_append, List.foldl_cons, List.foldl_nil]

theorem canonical_afterCalls (calls : List (List String)) :
    Canonical calls (afterCalls {} calls) := by
  induction calls using List.reverseRecOn with
  | nil => exact canonical_empty
  | append_singleton calls patterns ih =>
    rw [afterCalls_concat]
    exact ih.call patterns

theorem entries_suffix_afterCalls (cache : RuleCache) (calls : List (List String)) :
    cache.entries <:+ (cache.afterCalls calls).entries := by
  induction calls generalizing cache with
  | nil => exact List.suffix_refl _
  | cons patterns calls ih =>
    rw [afterCalls_cons]
    exact (entries_suffix_call cache patterns).trans (ih _)

/-- The entry at a place. Places are counted from the oldest entry, so they stay when entries are
added. -/
def entryAt? (cache : RuleCache) (place : Nat) : Option (List String × IgnoreRuleSet) :=
  cache.entries.reverse[place]?

theorem entryAt?_of_suffix {later : RuleCache} {place : Nat} {entry : List String × IgnoreRuleSet}
    (hsuffix : cache.entries <:+ later.entries) (h : cache.entryAt? place = some entry) :
    later.entryAt? place = some entry := by
  obtain ⟨added, hadded⟩ := hsuffix
  have hplace : place < cache.entries.reverse.length := (List.getElem?_eq_some_iff.mp h).1
  unfold entryAt? at h ⊢
  rw [← hadded, List.reverse_append, List.getElem?_append_left hplace, h]

/-- Different places have different patterns. -/
theorem Canonical.place_unique (h : Canonical asked cache) {place place' : Nat} {key : List String}
    {rules' : IgnoreRuleSet} (hplace : cache.entryAt? place = some (key, rules))
    (hplace' : cache.entryAt? place' = some (key, rules')) : place = place' := by
  have hnodup : (cache.entries.reverse.map Prod.fst).Nodup := by
    rw [List.map_reverse]
    exact List.nodup_reverse.mpr h.nodup
  have hkey : (cache.entries.reverse.map Prod.fst)[place]? = some key := by
    rw [List.getElem?_map, show cache.entries.reverse[place]? = _ from hplace]
    rfl
  have hkey' : (cache.entries.reverse.map Prod.fst)[place']? = some key := by
    rw [List.getElem?_map, show cache.entries.reverse[place']? = _ from hplace']
    rfl
  have hlength := (List.getElem?_eq_some_iff.mp hkey).1
  exact (List.getElem?_inj hlength hnodup).mp (hkey.trans hkey'.symm)

/-- Nobody can tell the cache from compiling every list afresh. After any calls, starting with the
empty cache, a call returns the rule set that its patterns have, or the error in its place; if it
fails, the cache stays as it was. Every entry is kept under its own patterns, which are sorted and
are those of a list that was asked for. A rule set that was returned once is returned again, from
the same and only place, for every list with the same patterns, whatever is asked in between and
however the lists are ordered, ended with blanks or mixed with blank patterns. -/
theorem cached_rule_sets {before : List (List String)} (hcache : cache = afterCalls {} before)
    (patterns : List String) :
    (cache.call patterns).1 = ofPatterns patterns ∧
    (∀ e, (cache.call patterns).1 = .error e → (cache.call patterns).2 = cache) ∧
    (∀ key rules, (key, rules) ∈ cache.entries →
      rules.extra = key ∧ key.Pairwise (· ≤ ·) ∧
        ∃ earlier ∈ before, ofPatterns earlier = .ok rules ∧
          key.Perm ((earlier.map Text.trimEnd).filter (· != ""))) ∧
    ∀ rules, (cache.call patterns).1 = .ok rules →
      ∀ (between : List (List String)) (again : List String) (later : RuleCache),
        Alike again patterns → later = afterCalls {} (before ++ patterns :: between) →
        ∃ place, (cache.call patterns).2.entryAt? place = some (keptPatterns patterns, rules) ∧
          later.call again = (.ok rules, later) ∧
          later.entryAt? place = some (keptPatterns again, rules) ∧
          ∀ other rules', later.entryAt? other = some (keptPatterns again, rules') →
            other = place := by
  have hcanonical : Canonical before cache := hcache ▸ canonical_afterCalls before
  refine ⟨hcanonical.answer patterns, ?_, ?_, ?_⟩
  · intro e he
    rcases call_cases cache patterns with
      ⟨e', -, hcall⟩ | ⟨known, -, -, hcall⟩ | ⟨fresh, -, -, hcall⟩
    · rw [hcall]
    · rw [hcall]
    · rw [hcall] at he
      cases he
  · intro key rules hmem
    obtain ⟨earlier, hearlier, hrules, rfl⟩ := hcanonical.kept key rules hmem
    exact ⟨extra_of_ofPatterns hrules, sorted_keptPatterns earlier, earlier, hearlier, hrules,
      keptPatterns_perm_filter earlier⟩
  · intro rules hrules between again later halike hlater
    have hsame : keptPatterns again = keptPatterns patterns := keptPatterns_of_alike halike
    have hafter : Canonical (before ++ patterns :: between) later :=
      hlater ▸ canonical_afterCalls _
    have hsuffix : (cache.call patterns).2.entries <:+ later.entries := by
      rw [hlater, afterCalls_append, afterCalls_cons, ← hcache]
      exact entries_suffix_afterCalls _ between
    obtain ⟨place, hplace⟩ : ∃ place, (cache.call patterns).2.entryAt? place =
        some (keptPatterns patterns, rules) :=
      List.mem_iff_getElem?.mp (List.mem_reverse.mpr (mem_of_call hrules))
    have hstays : later.entryAt? place = some (keptPatterns again, rules) := by
      rw [hsame]
      exact entryAt?_of_suffix hsuffix hplace
    refine ⟨place, hplace, hafter.call_eq ?_, hstays, ?_⟩
    · exact List.mem_reverse.mp (List.mem_of_getElem? hstays)
    · intro other rules' hother
      exact hafter.place_unique hother hstays

/-- A list, other patterns, and the list again in another order, with blanks and a blank pattern. -/
theorem cached_rule_sets_respelled : ∃ rules cache later,
    cache = afterCalls {} [["x"]] ∧ later = afterCalls {} [["x"], ["b/", "a/"], ["!c"]] ∧
    (cache.call ["b/", "a/"]).1 = .ok rules ∧
    later.call ["a/ ", "", "b/"] = (.ok rules, later) := by
  obtain ⟨cache, hcache⟩ : ∃ cache, cache = afterCalls {} [["x"]] := ⟨_, rfl⟩
  obtain ⟨later, hlater⟩ : ∃ later, later = afterCalls {} [["x"], ["b/", "a/"], ["!c"]] := ⟨_, rfl⟩
  obtain ⟨hanswer, -, -, hagain⟩ := cached_rule_sets hcache ["b/", "a/"]
  have hcompile : ∀ pattern ∈ ["b/", "a/"],
      (compile (Text.trimEnd pattern)).toOption.isSome = true := by decide +kernel
  obtain ⟨rules, hrules⟩ : ∃ rules, ofPatterns ["b/", "a/"] = .ok rules := by
    refine ofPatterns_isOk fun s hs => ?_
    obtain ⟨-, pattern, hpattern, rfl⟩ := mem_keptPatterns.mp hs
    exact hcompile pattern hpattern
  have halike : Alike ["a/ ", "", "b/"] ["b/", "a/"] := by
    unfold Alike
    decide +kernel
  obtain ⟨place, -, hcall, -⟩ := hagain rules (hanswer.trans hrules) [["!c"]] _ later halike hlater
  exact ⟨rules, cache, later, hcache, hlater, hanswer.trans hrules, hcall⟩

end RuleCache

end ImportContext
