import ImportContext.Ignore.RuleSet

/-!
# A cache of rule sets

Rule sets are kept under their sorted patterns, so that lists with the same patterns share one
rule set.
-/

namespace ImportContext

/-- Rule sets that were compiled before, each under its patterns. -/
structure RuleCache where
  entries : List (List String × IgnoreRuleSet) := []
deriving Inhabited

namespace RuleCache

/-- The rule set of some patterns: the one that is kept under them, or a new one, which is kept
from then on. -/
def get (cache : RuleCache) (patterns : List String) :
    Except IgnoreError (IgnoreRuleSet × RuleCache) := do
  let compiled ← IgnoreRuleSet.ofPatterns patterns
  match cache.entries.lookup compiled.extra with
  | some known => .ok (known, cache)
  | none => .ok (compiled, ⟨(compiled.extra, compiled) :: cache.entries⟩)

end RuleCache

end ImportContext
