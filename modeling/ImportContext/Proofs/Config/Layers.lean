import ImportContext.CommandLine.Run
import ImportContext.Proofs.Config.Union
import ImportContext.Proofs.Fallible
import ImportContext.Proofs.Path.Order
import ImportContext.Proofs.Tree.Focus
import Mathlib.Data.List.Monad

/-!
# Layers of configuration

A configuration consists of settings of a few kinds: single values, which the last layer that has
one decides, lists, which collect what all layers say, and the focus, where each label has the path
of the last layer that has the label. The environment and then the command line replace the locator
and the interpreter, and the command line adds modules.

Main definitions: `Setting`, `TextSetting`, `Config.Same`, `Config.Layered`, `Config.Overridden`.

Results:
* `Config.ext_settings`: a configuration is nothing but its settings.
* `Config.mergeAll_layered`: what each setting is after merging.
* `Config.settings_of_layers`: merging is associative, and where each setting in force comes from.
-/

namespace ImportContext

/-! ## Settings -/

/-- The settings that are single values, with the type of the value. -/
inductive Setting : Type → Type where
  | locator : Setting String
  | format : Setting String
  | codeName : Setting String
  | tokenModel : Setting String
  | template : Setting String
  | description : Setting String
  | headingLevel : Setting Nat
  | skipWhenError : Setting Bool
  | showProjectTree : Setting Bool
  | filterEnabled : Setting Bool
  | minDownloads : Setting Nat
  | downloadsTable : Setting Path
  | program : Setting String

/-- The settings that are lists of texts. -/
inductive TextSetting where
  | ignorePatterns
  | ignoreModules
  | noIgnoreModules
  | popularPackages

/-- The value that a layer gives to a setting. -/
def Setting.get {α : Type} : Setting α → Config → Option α
  | locator, c => c.defaults.locator
  | format, c => c.defaults.format
  | codeName, c => c.defaults.codeName
  | tokenModel, c => c.defaults.tokenModel
  | template, c => c.defaults.template
  | description, c => c.defaults.description
  | headingLevel, c => c.defaults.headingLevel
  | skipWhenError, c => c.defaults.skipWhenError
  | showProjectTree, c => c.defaults.showProjectTree
  | filterEnabled, c => c.filter.enabled
  | minDownloads, c => c.filter.minDownloads
  | downloadsTable, c => c.filter.downloadsTable
  | program, c => c.interpreter.program

/-- The value that the environment gives to a setting. -/
def Setting.ofEnvironment {α : Type} (env : Environment) : Setting α → Option α
  | locator => nonEmpty env.locator
  | program => nonEmpty env.interpreter
  | _ => none

/-- The value that the command line gives to a setting. -/
def Setting.ofArguments {α : Type} (e : EngineArguments) : Setting α → Option α
  | locator => e.locator.map LocatorKind.name
  | program => e.program
  | _ => none

namespace TextSetting

/-- The texts of a layer. -/
def get : TextSetting → Config → List String
  | ignorePatterns, c => c.ignorePatterns
  | ignoreModules, c => c.filter.ignoreModules
  | noIgnoreModules, c => c.filter.noIgnoreModules
  | popularPackages, c => c.filter.popularPackages

/-- The texts that the command line adds. -/
def ofArguments (e : EngineArguments) : TextSetting → List String
  | ignoreModules => e.ignoreModules
  | noIgnoreModules => e.noIgnoreModules
  | _ => []

end TextSetting

namespace Config

variable {α : Type} {a b c : Config} {layers : List Config}

/-- A configuration is nothing but its settings. -/
theorem ext_settings (hvalue : ∀ (α : Type) (s : Setting α), s.get a = s.get b)
    (htexts : ∀ t : TextSetting, t.get a = t.get b)
    (hpaths : a.interpreter.searchPaths = b.interpreter.searchPaths)
    (hfocus : a.focus = b.focus) : a = b := by
  obtain ⟨⟨⟩, _, ⟨⟩, ⟨⟩, _⟩ := a
  obtain ⟨⟨⟩, _, ⟨⟩, ⟨⟩, _⟩ := b
  congr 1
  · congr 1
    · exact hvalue _ .locator
    · exact hvalue _ .format
    · exact hvalue _ .codeName
    · exact hvalue _ .tokenModel
    · exact hvalue _ .template
    · exact hvalue _ .description
    · exact hvalue _ .headingLevel
    · exact hvalue _ .skipWhenError
    · exact hvalue _ .showProjectTree
  · exact htexts .ignorePatterns
  · congr 1
    · exact hvalue _ .filterEnabled
    · exact hvalue _ .minDownloads
    · exact htexts .ignoreModules
    · exact htexts .noIgnoreModules
    · exact htexts .popularPackages
    · exact hvalue _ .downloadsTable
  · congr 1
    · exact hvalue _ .program

/-- The same settings, search paths compared by their components. -/
structure Same (a b : Config) : Prop where
  value {α : Type} (s : Setting α) : s.get a = s.get b
  texts (t : TextSetting) : t.get a = t.get b
  searchPaths :
    a.interpreter.searchPaths.map Path.components = b.interpreter.searchPaths.map Path.components
  focus : a.focus = b.focus

/-! ## Merging two layers -/

theorem get_merge (s : Setting α) : s.get (a.merge b) = (s.get b <|> s.get a) := by
  cases s <;> rfl

theorem texts_merge (t : TextSetting) :
    t.get (a.merge b) = sortedUnion textLe (t.get a) (t.get b) := by
  cases t <;> rfl

theorem searchPaths_merge : (a.merge b).interpreter.searchPaths =
    sortedUnion Path.le a.interpreter.searchPaths b.interpreter.searchPaths :=
  rfl

theorem path?_merge (l : String) :
    (a.merge b).focus.path? l = (b.focus.path? l <|> a.focus.path? l) :=
  FocusItems.path?_extend _ b.focus.ordered

theorem textLe_iff (a b : String) : textLe a b = true ↔ id a ≤ id b :=
  decide_eq_true_iff

/-- Of three layers it does not matter which two are merged first. -/
theorem same_merge_merge (a b c : Config) : ((a.merge b).merge c).Same (a.merge (b.merge c)) where
  value s := by
    rw [get_merge, get_merge, get_merge, get_merge, orElse_assoc]
  texts t := by
    have h := map_key_sortedUnion_assoc textLe_iff (t.get a) (t.get b) (t.get c)
    rw [List.map_id, List.map_id] at h
    rw [texts_merge, texts_merge, texts_merge, texts_merge, h]
  searchPaths := by
    rw [Path.map_components_eq_iff, searchPaths_merge, searchPaths_merge, searchPaths_merge,
      searchPaths_merge]
    exact map_key_sortedUnion_assoc Path.le_iff _ _ _
  focus := by
    refine FocusItems.ext_path? fun l => ?_
    rw [path?_merge, path?_merge, path?_merge, path?_merge, orElse_assoc]

/-! ## Merging all layers -/

/-- The layers as one, each on top of those before it. -/
def mergeAll : List Config → Config
  | [] => {}
  | first :: rest => rest.foldl merge first

/-- What the last layer says that says anything. -/
def lastSet (layers : List Config) (get : Config → Option α) : Option α :=
  layers.reverse.findSome? get

theorem lastSet_cons {get : Config → Option α} :
    lastSet (c :: layers) get = (lastSet layers get <|> get c) := by
  rw [lastSet, lastSet, List.reverse_cons, List.findSome?_append, List.findSome?_singleton,
    Option.or_eq_orElse]
  rfl

/-- What merging two layers decides for the upper one, the last layer decides. -/
theorem get_foldl_merge (get : Config → Option α)
    (hmerge : ∀ a b, get (a.merge b) = (get b <|> get a)) :
    get (layers.foldl merge c) = lastSet (c :: layers) get := by
  induction layers generalizing c with
  | nil => rw [lastSet_cons]; rfl
  | cons layer rest ih => rw [List.foldl_cons, ih, lastSet_cons, hmerge, lastSet_cons,
      lastSet_cons, orElse_assoc]

/-- A list that two layers have the union of is the union over all layers. -/
theorem list_foldl_merge {β : Type} {le : β → β → Bool} (get : Config → List β)
    (hmerge : ∀ a b, get (a.merge b) = sortedUnion le (get a) (get b)) :
    get (layers.foldl merge c) = (layers.map get).foldl (sortedUnion le) (get c) := by
  rw [List.foldl_map]
  exact (List.foldl_hom get fun a b => (hmerge a b).symm).symm

/-- What the settings of merged layers are. -/
structure Layered (layers : List Config) (c : Config) : Prop where
  value {α : Type} (s : Setting α) : s.get c = lastSet layers s.get
  texts (t : TextSetting) : IsUnion id (layers.map t.get) (t.get c)
  searchPaths : IsUnion Path.key (layers.map (·.interpreter.searchPaths)) c.interpreter.searchPaths
  focus (label : String) : c.focus.path? label = lastSet layers (·.focus.path? label)

/-- The lists of a layer are sorted, without duplicates. -/
structure Sorted (c : Config) : Prop where
  texts (t : TextSetting) : Increasing id (t.get c)
  searchPaths : Increasing Path.key c.interpreter.searchPaths

theorem foldl_merge_layered (h : layers = [] → c.Sorted) :
    Layered (c :: layers) (layers.foldl merge c) where
  value s := get_foldl_merge _ fun _ _ => get_merge s
  texts t := by
    rw [list_foldl_merge t.get fun _ _ => texts_merge t]
    exact isUnion_foldl textLe_iff fun hnil => (h (List.map_eq_nil_iff.mp hnil)).texts t
  searchPaths := by
    rw [list_foldl_merge (·.interpreter.searchPaths) fun _ _ => searchPaths_merge]
    exact isUnion_foldl Path.le_iff fun hnil => (h (List.map_eq_nil_iff.mp hnil)).searchPaths
  focus label := get_foldl_merge (·.focus.path? label) fun _ _ => path?_merge label

theorem builtin_sorted : builtin.Sorted where
  texts t := by
    cases t
    · exact List.Pairwise.nil
    · exact List.Pairwise.nil
    · exact List.Pairwise.nil
    · change (popularDistributions.map id).Pairwise (· < ·)
      decide +kernel
  searchPaths := List.Pairwise.nil

theorem mergeAll_layered {files order : List Config} (h : order.Perm (builtin :: files)) :
    Layered order (mergeAll order) := by
  cases order with
  | nil => exact absurd h.symm.eq_nil (List.cons_ne_nil _ _)
  | cons first rest =>
    refine foldl_merge_layered fun hrest => ?_
    rw [hrest, List.singleton_perm] at h
    rw [(List.cons.inj h).1]
    exact builtin_sorted

/-- The lists of two configurations are the same, search paths compared by their components. -/
structure SameLists (a b : Config) : Prop where
  texts (t : TextSetting) : t.get a = t.get b
  searchPaths :
    a.interpreter.searchPaths.map Path.components = b.interpreter.searchPaths.map Path.components

/-- The order of the layers does not matter to lists. -/
theorem Layered.sameLists {layers' : List Config} (h : Layered layers a) (h' : Layered layers' b)
    (hperm : layers.Perm layers') : SameLists a b where
  texts t := by
    have htexts := (h.texts t).map_eq_of_perm (h'.texts t) (hperm.map _)
    rwa [List.map_id, List.map_id] at htexts
  searchPaths :=
    Path.map_components_eq_iff.mpr (h.searchPaths.map_eq_of_perm h'.searchPaths (hperm.map _))

/-! ## Later steps -/

/-- A step that replaces the settings it has a value for and adds to the lists of texts, and
changes nothing else. -/
structure Overridden (value : (α : Type) → Setting α → Option α)
    (added : TextSetting → List String) (c c' : Config) : Prop where
  value {α : Type} (s : Setting α) : s.get c' = (value α s <|> s.get c)
  texts (t : TextSetting) : t.get c' = t.get c ++ added t
  searchPaths : c'.interpreter.searchPaths = c.interpreter.searchPaths
  focus : c'.focus = c.focus

theorem withEnvironment_overridden (env : Environment) :
    Overridden (fun _ s => s.ofEnvironment env) (fun _ => []) c (c.withEnvironment env) where
  value s := by cases s <;> rfl
  texts t := by cases t <;> exact (List.append_nil _).symm
  searchPaths := rfl
  focus := rfl

theorem apply_overridden (e : EngineArguments) :
    Overridden (fun _ s => s.ofArguments e) (·.ofArguments e) c (e.apply c) where
  value s := by cases s <;> rfl
  texts t := by
    cases t with
    | ignorePatterns | popularPackages => exact (List.append_nil _).symm
    | ignoreModules | noIgnoreModules => rfl
  searchPaths := rfl
  focus := rfl

theorem load_eq_ok_iff {h : Host} {explicit : Option Path} :
    load h explicit = .ok c ↔ explicit.filter (!h.isFile ·) = none ∧
      ∃ files, (layerFiles h explicit).mapM (ofFile h) = .ok files ∧
        c = (mergeAll (builtin :: files)).withEnvironment h.env := by
  rw [load]
  cases explicit.filter (!h.isFile ·) with
  | some path => simp
  | none =>
    rw [bind_eq_ok_iff]
    constructor
    · rintro ⟨files, hfiles, hc⟩
      exact ⟨rfl, files, hfiles, (Except.ok.inj hc).symm⟩
    · rintro ⟨-, files, hfiles, rfl⟩
      exact ⟨files, hfiles, rfl⟩

/-- Merging is associative. With the built-in layer below, each single value in force is that of
the last layer that has one, each list is the union over all layers, so it does not depend on their
order, and the focus has the path of the last layer for each label. The environment replaces the
locator and the interpreter, then the command line replaces them and adds modules. -/
theorem settings_of_layers :
    (∀ a b c : Config, ((a.merge b).merge c).Same (a.merge (b.merge c))) ∧
    (∀ files, Layered (builtin :: files) (mergeAll (builtin :: files))) ∧
    (∀ files order, order.Perm (builtin :: files) →
      SameLists (mergeAll order) (mergeAll (builtin :: files))) ∧
    (∀ c env, Overridden (fun _ s => s.ofEnvironment env) (fun _ => []) c
      (c.withEnvironment env)) ∧
    (∀ (c : Config) (e : EngineArguments),
      Overridden (fun _ s => s.ofArguments e) (·.ofArguments e) c (e.apply c)) ∧
    ∀ h explicit c, load h explicit = .ok c ↔ explicit.filter (!h.isFile ·) = none ∧
      ∃ files, (layerFiles h explicit).mapM (ofFile h) = .ok files ∧
        c = (mergeAll (builtin :: files)).withEnvironment h.env := by
  refine ⟨same_merge_merge, fun files => mergeAll_layered (.refl _), fun files order hperm => ?_,
    fun _ env => withEnvironment_overridden env, fun _ e => apply_overridden e,
    fun _ _ _ => load_eq_ok_iff⟩
  exact (mergeAll_layered hperm).sameLists (mergeAll_layered (.refl _)) hperm

/-- A layer with the dynamic locator, and patterns that are not in order. -/
def importingLayer : Config where
  defaults := { locator := some "dynamic" }
  ignorePatterns := ["tests", "docs"]

/-- A layer that returns to the locator of the built-in one. -/
def readingLayer : Config where
  defaults := { locator := some "static" }
  ignorePatterns := ["build", "tests"]

/-- The last of two layers returns to the built-in locator, and either order gives the same
patterns. -/
theorem settings_of_two_layers :
    (mergeAll [builtin, importingLayer, readingLayer]).defaults.locator = some "static" ∧
    (mergeAll [readingLayer, builtin, importingLayer]).ignorePatterns =
      (mergeAll [builtin, importingLayer, readingLayer]).ignorePatterns := by
  obtain ⟨-, hlayered, hperm, -⟩ := settings_of_layers
  refine ⟨((hlayered [importingLayer, readingLayer]).value .locator).trans rfl, ?_⟩
  have hmoved : [readingLayer, builtin, importingLayer].Perm
      [builtin, importingLayer, readingLayer] :=
    ((List.Perm.swap builtin readingLayer _).trans ((List.Perm.swap importingLayer _ _).cons _))
  exact (hperm _ _ hmoved).texts .ignorePatterns

end Config

end ImportContext
