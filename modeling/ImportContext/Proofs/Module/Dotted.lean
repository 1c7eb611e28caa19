import ImportContext.Proofs.Fallible
import ImportContext.Proofs.Module.Relative
import ImportContext.Proofs.Path.Names

/-!
# Dotted texts

An identity passes between the stages of a run now as a text with dots and now as its segments.
Going on from an identity by a dotted text is the same in both forms: dots at the ends of the texts
and doubled dots leave no trace. Back from its text comes every identity whose segments can be
written between dots, so in particular every identity that was read from a text.

Results:
* `parts_dot`: the segments of two texts with a dot between them are those of both.
* `parse_text_iff`: which identities come back from their texts.
* `ResolvedImport.text_target`: the text of an imported member.
* `dotted_texts_compose`: how reading, going on and writing fit together.
-/

namespace ImportContext

namespace ModuleIdentity

variable {i : ModuleIdentity} {s t u : String}

/-! ## Segments of texts -/

/-- The segments of two texts with a dot between them are those of both. -/
theorem parts_dot (s t : String) : parts (s ++ "." ++ t) = parts s ++ parts t := by
  have hchars : (s ++ "." ++ t).toList = s.toList ++ '.' :: t.toList := by simp
  have hsplit : Text.splitOnChar '.' (s ++ "." ++ t) =
      Text.splitOnChar '.' s ++ Text.splitOnChar '.' t := by
    unfold Text.splitOnChar
    rw [hchars, List.splitOn_append_cons_self, List.map_append]
  unfold parts
  rw [hsplit, List.filter_append]

/-- Whatever is read from a text can be written between dots. -/
theorem isSegment_of_mem_parts (h : s ∈ parts t) : IsSegment s := by
  obtain ⟨hsplit, hne⟩ := List.mem_filter.mp h
  obtain ⟨piece, hpiece, rfl⟩ := List.mem_map.mp hsplit
  have hdot : '.' ∉ piece := (Path.of_mem_splitOn hpiece).1
  exact ⟨by simpa using hne, by simpa using hdot⟩

theorem parts_of_isSegment (h : IsSegment s) : parts s = [s] := by
  have hback := @parts_intercalate [s] (by simpa using h)
  rwa [String.intercalate_singleton] at hback

/-! ## Identities and their texts -/

theorem join_parse (s t : String) : (parse s).join t = parse (s ++ "." ++ t) := by
  unfold parse join
  rw [parts_dot]

theorem join_join (i : ModuleIdentity) (t u : String) :
    (i.join t).join u = i.join (t ++ "." ++ u) := by
  unfold join
  rw [parts_dot, List.append_assoc]

/-- An identity comes back from its text if each of its segments can be written between dots. -/
theorem parse_text_iff : parse i.text = i ↔ ∀ s ∈ i.segments, IsSegment s := by
  constructor
  · intro h s hs
    rw [← h] at hs
    exact isSegment_of_mem_parts hs
  · intro h
    show ModuleIdentity.mk (parts i.text) = i
    unfold text
    rw [parts_intercalate h]

/-- A segment behind an identity stands behind a dot in its text, unless it is the first one. -/
theorem text_join (h : IsSegment s) :
    (i.join s).text = if i.isEmpty then s else i.text ++ "." ++ s := by
  unfold join text isEmpty
  rw [parts_of_isSegment h]
  cases hsegments : i.segments with
  | nil => simp
  | cons first rest =>
    rw [String.intercalate_append_of_ne_nil (by simp) (by simp), String.intercalate_singleton]
    simp

end ModuleIdentity

open ModuleIdentity

/-- A member is written behind its module. -/
theorem ResolvedImport.text_target {r : ResolvedImport} {s : String} (hsymbol : r.symbol = some s)
    (hs : IsSegment s) (hstar : s ≠ "*") :
    r.target.text = if r.module.isEmpty then s else r.module.text ++ "." ++ s := by
  have htarget : r.target = r.module.join s := by
    unfold target
    simp [hsymbol, hstar]
  rw [htarget, text_join hs]

/-- A member keeps its name when its module is resolved. -/
theorem PackageLayout.symbol_of_resolve {current : ModuleLocation} {d : FromImport}
    {r : ResolvedImport} (h : PackageLayout.resolve current (.member d) = .ok r) :
    r.symbol = some d.symbol := by
  unfold PackageLayout.resolve at h
  by_cases hrelative : d.isRelative = true
  · simp only [hrelative, if_true] at h
    obtain ⟨module, -, hr⟩ := bind_eq_ok_iff.mp h
    cases hr
    rfl
  · simp only [hrelative] at h
    cases h
    rfl

namespace ModuleIdentity

/-- Reading, going on and writing fit together. To go on by a text from what was read is to read
both texts with a dot between them, and two such steps are one. An identity comes back from its
text exactly if its segments are non-empty and without dots, as they are in every identity that was
read. A member of a module keeps its name when the import is resolved. The text of an imported
member is that of the module, a dot and the name, or the name alone behind the empty identity. -/
theorem dotted_texts_compose :
    (∀ s t : String, (parse s).join t = parse (s ++ "." ++ t)) ∧
    (∀ (i : ModuleIdentity) (t u : String), (i.join t).join u = i.join (t ++ "." ++ u)) ∧
    (∀ i : ModuleIdentity, parse i.text = i ↔ ∀ s ∈ i.segments, s ≠ "" ∧ '.' ∉ s.toList) ∧
    (∀ s : String, parse (parse s).text = parse s) ∧
    (∀ (current : ModuleLocation) (d : FromImport) (r : ResolvedImport),
      PackageLayout.resolve current (.member d) = .ok r → r.symbol = some d.symbol) ∧
    ∀ (r : ResolvedImport) (s : String), r.symbol = some s → s ≠ "" → '.' ∉ s.toList → s ≠ "*" →
      r.target.text = if r.module.isEmpty then s else r.module.text ++ "." ++ s := by
  refine ⟨join_parse, join_join, fun i => parse_text_iff, ?_, ?_, ?_⟩
  · intro s
    exact parse_text_iff.mpr fun segment hsegment => isSegment_of_mem_parts hsegment
  · intro current d r hr
    exact PackageLayout.symbol_of_resolve hr
  · intro r s hsymbol hne hdot hstar
    exact ResolvedImport.text_target hsymbol ⟨hne, hdot⟩ hstar

/-- A member of the package around a module, texts with idle dots, and a segment with a dot in it,
which comes back as two. -/
theorem dotted_texts_compose_idle :
    let current : ModuleLocation := ⟨⟨"/src/a/b.py"⟩, ⟨"/src"⟩, ⟨["a", "b"]⟩, false⟩
    let sibling : ResolvedImport := ⟨⟨["a"]⟩, some "c"⟩
    PackageLayout.resolve current (.member ⟨"", "c", none, 1, ⟨1, 0⟩⟩) = .ok sibling ∧
      sibling.target.text = "a.c" ∧
      (parse ".a..").join "b.." = parse ".a...b.." ∧
      parse (ModuleIdentity.mk ["a.b"]).text ≠ ⟨["a.b"]⟩ := by
  intro current sibling
  obtain ⟨hjoin, -, hback, -, hresolve, hmember⟩ := dotted_texts_compose
  have hr : PackageLayout.resolve current (.member ⟨"", "c", none, 1, ⟨1, 0⟩⟩) = .ok sibling := rfl
  refine ⟨hr, ?_, hjoin ".a.." "b..", ?_⟩
  · have hsymbol : sibling.symbol = some "c" := hresolve current _ sibling hr
    rw [hmember sibling "c" hsymbol (by decide) (by decide) (by decide)]
    decide +kernel
  · intro h
    exact absurd ((hback _).mp h) (by decide)

end ModuleIdentity

end ImportContext
