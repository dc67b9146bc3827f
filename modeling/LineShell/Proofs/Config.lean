import Mathlib.Logic.Function.Basic
import LineShell.Proofs.Proc.Tree
import LineShell.Proofs.Text.Integer

/- What a session is configured with from the environment.

   A variable counts if it is set to a text that is not empty (`Overrides`). Three variables are
   looked at, for the prompt, the root and the capacity; a setting without one keeps its default,
   and all other settings keep theirs (`Configures`). Only a capacity can be refused: one that is no
   integer, or an integer below one (`IsRefused`). Of a root the slashes at its end are left off,
   but for one if there is nothing else (`IsTidied`). That leads to the same paths
   (`resolve_tidyRoot`), and doing it once more changes nothing (`tidyRoot_tidyRoot`).
   `ofEnvironment_configures` says all this of every environment. -/
namespace LineShell

namespace Config

/-! ## Roots -/

/-- The root without the slashes at its end; a root of slashes only is one slash. -/
def IsTidied (root tidy : Text) : Prop :=
  (∃ slashes, root = tidy ++ slashes ∧ (∀ c ∈ slashes, CodePoint.isSlash c = true)
      ∧ tidy ≠ [] ∧ ∀ c ∈ tidy.getLast?, CodePoint.isSlash c = false)
    ∨ (∀ c ∈ root, CodePoint.isSlash c = true) ∧ tidy = "/"

theorem isTidied_tidyRoot (root : Text) : IsTidied root (tidyRoot root) := by
  obtain ⟨slashes, hroot, hslashes⟩ := Text.exists_dropEndWhile CodePoint.isSlash root
  rw [tidyRoot]
  by_cases hkept : root.dropEndWhile CodePoint.isSlash = []
  · simp only [hkept]
    exact .inr ⟨(Text.dropEndWhile_eq_nil_iff _ root).mp hkept, rfl⟩
  · rw [if_neg (by simpa using hkept)]
    exact .inl ⟨slashes, hroot, hslashes, hkept, Text.getLast?_dropEndWhile _ root⟩

theorem tidyRoot_ne_nil (root : Text) : tidyRoot root ≠ [] := by
  rcases isTidied_tidyRoot root with ⟨_, _, _, hne, _⟩ | ⟨_, hslash⟩
  · exact hne
  · rw [hslash]
    exact List.cons_ne_nil _ _

theorem dropEndWhile_tidyRoot (root : Text) :
    (tidyRoot root).dropEndWhile CodePoint.isSlash = root.dropEndWhile CodePoint.isSlash := by
  rw [tidyRoot]
  by_cases hkept : root.dropEndWhile CodePoint.isSlash = []
  · simp only [hkept]
    rfl
  · rw [if_neg (by simpa using hkept), Text.dropEndWhile_dropEndWhile]

theorem tidyRoot_tidyRoot (root : Text) : tidyRoot (tidyRoot root) = tidyRoot root := by
  conv_lhs => rw [tidyRoot, dropEndWhile_tidyRoot]
  rfl

theorem under_tidyRoot (root : Text) (file : ProcPath) :
    file.under (tidyRoot root) = file.under root := by
  rw [ProcPath.under_eq, ProcPath.under_eq, dropEndWhile_tidyRoot]

theorem resolve_tidyRoot (root : Text) (capacity : Int) (supported arguments : List Text) :
    ProcPath.resolve (tidyRoot root) capacity supported arguments
      = ProcPath.resolve root capacity supported arguments := by
  by_cases hpair : arguments.length = 2
  · obtain ⟨command, argument, rfl⟩ := List.length_eq_two.mp hpair
    simp only [ProcPath.resolve_pair, under_tidyRoot]
  · rw [ProcPath.resolve_eq_usage hpair, ProcPath.resolve_eq_usage hpair]

/-! ## Variables -/

/-- The variable is set, and not to the empty text. -/
def Overrides (environment : Text → Option Text) (name text : Text) : Prop :=
  environment name = some text ∧ text ≠ []

section

variable (environment : Text → Option Text) (name : Text)

theorem override?_eq_some_iff (text : Text) :
    override? environment name = some text ↔ Overrides environment name text := by
  simp [override?, Overrides, Option.filter_eq_some_iff]

theorem override?_eq_none_iff :
    override? environment name = none ↔ ∀ text, ¬Overrides environment name text := by
  rw [Option.eq_none_iff_forall_ne_some]
  exact forall_congr' fun text => not_congr (override?_eq_some_iff environment name text)

end

/-- A setting is what its variable gives, or its default when the variable does not count. -/
inductive IsSet {α : Type} (environment : Text → Option Text) (name : Text)
    (Gives : Text → α → Prop) (fallback : α) : α → Prop where
  | given {text : Text} {value : α} (hset : Overrides environment name text)
      (hgives : Gives text value) : IsSet environment name Gives fallback value
  | absent (hunset : ∀ text, ¬Overrides environment name text) :
    IsSet environment name Gives fallback fallback

theorem isSet_override? {α : Type} (environment : Text → Option Text) (name : Text)
    {Gives : Text → α → Prop} {read : Text → α} (hread : ∀ text, Gives text (read text))
    (fallback : α) :
    IsSet environment name Gives fallback
      (((override? environment name).map read).getD fallback) := by
  cases hoverride : override? environment name with
  | none => exact .absent ((override?_eq_none_iff environment name).mp hoverride)
  | some text => exact .given ((override?_eq_some_iff environment name text).mp hoverride) (hread text)

theorem capacity?_eq_some_iff (text : Text) (capacity : Int) :
    capacity? text = some capacity ↔ Numeral.Converts text capacity := by
  rw [capacity?, Option.bind_eq_some_iff]
  refine ⟨?_, ?_⟩
  · rintro ⟨numeral, hread, hcapacity⟩
    obtain ⟨front, sign, groups, back, values, hgrouped, rfl⟩ :=
      (Numeral.anyScript?_eq_some_iff text numeral).mp hread
    split at hcapacity
    · cases hcapacity
    · next hshort =>
      rw [← Option.some.inj hcapacity, Numeral.value_eq_signed]
      exact .intro hgrouped (Nat.le_of_not_lt hshort)
  · rintro ⟨hgrouped, hshort⟩
    refine ⟨_, (Numeral.anyScript?_eq_some_iff text _).mpr ⟨_, _, _, _, _, hgrouped, rfl⟩, ?_⟩
    rw [if_neg (Nat.not_lt.mpr hshort), Numeral.value_eq_signed]

/-! ## Configurations -/

/-- The configuration that an environment stands for. -/
structure Configures (environment : Text → Option Text) (config : Config) : Prop where
  prompt : IsSet environment promptVariable Eq default.prompt config.prompt
  procRoot : IsSet environment procRootVariable IsTidied default.procRoot config.procRoot
  pathCapacity : IsSet environment pathCapacityVariable Numeral.Converts default.pathCapacity
    config.pathCapacity
  /-- All other settings are the default ones. -/
  others : config.toSettings = { default.toSettings with
    prompt := config.prompt, procRoot := config.procRoot, pathCapacity := config.pathCapacity }
  /-- The resolver and the token storage can work with it. -/
  valid : 1 ≤ config.pathCapacity ∧ 1 ≤ config.argGrowth

/-- Why an environment stands for no configuration: its capacity is no integer, or too small. -/
inductive IsRefused (environment : Text → Option Text) : ConfigError → Prop where
  | notAnInteger {text : Text} (hset : Overrides environment pathCapacityVariable text)
      (hnone : ∀ capacity, ¬Numeral.Converts text capacity) :
    IsRefused environment (.capacityNotAnInteger text)
  | notPositive {text : Text} {capacity : Int}
      (hset : Overrides environment pathCapacityVariable text)
      (hconverts : Numeral.Converts text capacity) (hsmall : capacity < 1) :
    IsRefused environment (.capacityNotPositive capacity)

theorem check_eq_ok_iff (s : Settings) (config : Config) :
    s.check = .ok config ↔ config.toSettings = s := by
  refine ⟨?_, ?_⟩
  · intro h
    rw [Settings.check] at h
    split at h
    · split at h
      · cases h
        rfl
      · cases h
    · cases h
  · rintro rfl
    rw [Settings.check, dif_pos config.one_le_pathCapacity, dif_pos config.one_le_argGrowth]

/-- A growth that is positive leaves the capacity to be refused. -/
theorem check_eq_error_iff {s : Settings} (hgrowth : 1 ≤ s.argGrowth) (error : ConfigError) :
    s.check = .error error ↔ s.pathCapacity < 1 ∧ error = .capacityNotPositive s.pathCapacity := by
  rw [Settings.check]
  split
  · next hcapacity =>
    exact iff_of_false (by simp) fun h => absurd h.1 (Int.not_lt.mpr hcapacity)
  · next hcapacity =>
    simp [Int.not_le.mp hcapacity, eq_comm]

section

variable (environment : Text → Option Text)

/-- The default settings with what the environment says of the prompt and the root, and a capacity. -/
def settingsOf (capacity : Int) : Settings where
  prompt := (override? environment promptVariable).getD default.prompt
  procRoot := ((override? environment procRootVariable).map tidyRoot).getD default.procRoot
  pathCapacity := capacity

/-- The capacity is given or the default one, or else it is given as what is no integer. -/
theorem isSet_capacity_or : (∃ capacity, IsSet environment pathCapacityVariable Numeral.Converts
      default.pathCapacity capacity)
    ∨ ∃ text, Overrides environment pathCapacityVariable text
      ∧ ∀ capacity, ¬Numeral.Converts text capacity := by
  cases hoverride : override? environment pathCapacityVariable with
  | none => exact .inl ⟨_, .absent ((override?_eq_none_iff environment _).mp hoverride)⟩
  | some text =>
    have hset := (override?_eq_some_iff environment _ text).mp hoverride
    by_cases hconverts : ∃ capacity, Numeral.Converts text capacity
    · obtain ⟨capacity, hconverts⟩ := hconverts
      exact .inl ⟨capacity, .given hset hconverts⟩
    · exact .inr ⟨text, hset, not_exists.mp hconverts⟩

variable {environment}

theorem ofEnvironment_of_isSet {capacity : Int} (h : IsSet environment pathCapacityVariable
      Numeral.Converts default.pathCapacity capacity) :
    ofEnvironment environment = (settingsOf environment capacity).check := by
  rw [ofEnvironment]
  cases h with
  | given hset hconverts =>
    rw [(override?_eq_some_iff environment _ _).mpr hset]
    simp only [(capacity?_eq_some_iff _ capacity).mpr hconverts]
    rfl
  | absent hunset =>
    rw [(override?_eq_none_iff environment _).mpr hunset]
    rfl

theorem ofEnvironment_of_not_converts {text : Text}
    (hset : Overrides environment pathCapacityVariable text)
    (hnone : ∀ capacity, ¬Numeral.Converts text capacity) :
    ofEnvironment environment = .error (.capacityNotAnInteger text) := by
  have hcapacity : capacity? text = none := by
    rw [Option.eq_none_iff_forall_ne_some]
    exact fun capacity h => hnone capacity ((capacity?_eq_some_iff text capacity).mp h)
  rw [ofEnvironment, (override?_eq_some_iff environment _ text).mpr hset]
  simp only [hcapacity]

theorem ofEnvironment_congr {other : Text → Option Text}
    (hprompt : override? other promptVariable = override? environment promptVariable)
    (hroot : (override? other procRootVariable).map tidyRoot
      = (override? environment procRootVariable).map tidyRoot)
    (hcapacity : override? other pathCapacityVariable = override? environment pathCapacityVariable) :
    ofEnvironment other = ofEnvironment environment := by
  rw [ofEnvironment, ofEnvironment, hprompt, hroot, hcapacity]

theorem ofEnvironment_eq_error_iff (error : ConfigError) :
    ofEnvironment environment = .error error ↔ IsRefused environment error := by
  have hgrowth : ∀ capacity, 1 ≤ (settingsOf environment capacity).argGrowth :=
    fun _ => default.one_le_argGrowth
  refine ⟨?_, ?_⟩
  · intro h
    rcases isSet_capacity_or environment with ⟨capacity, hset⟩ | ⟨text, hset, hnone⟩
    · rw [ofEnvironment_of_isSet hset, check_eq_error_iff (hgrowth capacity)] at h
      obtain ⟨hsmall, rfl⟩ := h
      cases hset with
      | given hset hconverts => exact .notPositive hset hconverts hsmall
      | absent hunset => exact absurd default.one_le_pathCapacity (Int.not_le.mpr hsmall)
    · rw [ofEnvironment_of_not_converts hset hnone] at h
      cases h
      exact .notAnInteger hset hnone
  · rintro (⟨hset, hnone⟩ | ⟨hset, hconverts, hsmall⟩)
    · exact ofEnvironment_of_not_converts hset hnone
    · rw [ofEnvironment_of_isSet (.given hset hconverts), check_eq_error_iff (hgrowth _)]
      exact ⟨hsmall, rfl⟩

variable {config : Config} (h : ofEnvironment environment = .ok config)

include h

theorem settings_of_ofEnvironment : config.toSettings = settingsOf environment config.pathCapacity
    ∧ IsSet environment pathCapacityVariable Numeral.Converts default.pathCapacity
      config.pathCapacity := by
  rcases isSet_capacity_or environment with ⟨capacity, hset⟩ | ⟨text, hset, hnone⟩
  · rw [ofEnvironment_of_isSet hset, check_eq_ok_iff] at h
    have hsame : config.pathCapacity = capacity := by rw [h]; rfl
    rw [hsame]
    exact ⟨h, hset⟩
  · rw [ofEnvironment_of_not_converts hset hnone] at h
    cases h

theorem procRoot_of_overrides {root : Text} (hroot : Overrides environment procRootVariable root) :
    config.procRoot = tidyRoot root := by
  have hoverride := (override?_eq_some_iff environment _ root).mpr hroot
  rw [(settings_of_ofEnvironment h).1, settingsOf, hoverride]
  rfl

theorem configures_of_ofEnvironment : Configures environment config := by
  obtain ⟨hsettings, hcapacity⟩ := settings_of_ofEnvironment h
  have hprompt : config.prompt = (override? environment promptVariable).getD default.prompt := by
    rw [hsettings]
    rfl
  have hroot : config.procRoot
      = ((override? environment procRootVariable).map tidyRoot).getD default.procRoot := by
    rw [hsettings]
    rfl
  have hread := isSet_override? environment promptVariable Eq.refl default.prompt
  rw [Option.map_id', ← hprompt] at hread
  exact {
    prompt := hread
    procRoot := hroot ▸ isSet_override? environment procRootVariable isTidied_tidyRoot _
    pathCapacity := hcapacity
    others := by
      rw [hprompt, hroot]
      exact hsettings
    valid := ⟨config.one_le_pathCapacity, config.one_le_argGrowth⟩ }

end

/-- What the environment says of a root, and what of it the resolver sees. -/
structure KeepsRoot (environment : Text → Option Text) (root : Text) (config : Config) : Prop where
  /-- Under the configured root every path is what it is under the root as it is given, and every
  failure. -/
  resolve : ∀ capacity supported arguments,
    ProcPath.resolve config.procRoot capacity supported arguments
      = ProcPath.resolve root capacity supported arguments
  /-- An environment that gives the configured root configures it again, -/
  again : ∀ other later, other procRootVariable = some config.procRoot →
    ofEnvironment other = .ok later → later.procRoot = config.procRoot
  /-- and if it is the same one but for that, the same configuration. -/
  same : ofEnvironment (Function.update environment procRootVariable (some config.procRoot))
    = .ok config

theorem keepsRoot_of_overrides {environment : Text → Option Text} {root : Text}
    (hroot : Overrides environment procRootVariable root) {config : Config}
    (h : ofEnvironment environment = .ok config) : KeepsRoot environment root config := by
  have htidy := procRoot_of_overrides h hroot
  have hoverrides : ∀ other, other procRootVariable = some config.procRoot →
      Overrides other procRootVariable (tidyRoot root) := fun other hother =>
    ⟨htidy ▸ hother, tidyRoot_ne_nil root⟩
  refine ⟨?_, ?_, ?_⟩
  · intro capacity supported arguments
    rw [htidy, resolve_tidyRoot]
  · intro other later hother hlater
    rw [procRoot_of_overrides hlater (hoverrides other hother), tidyRoot_tidyRoot, htidy]
  · rw [← h]
    have hupdated := (override?_eq_some_iff _ _ _).mpr
      (hoverrides _ (Function.update_self procRootVariable (some config.procRoot) environment))
    apply ofEnvironment_congr
    · rw [override?, Function.update_of_ne (by decide)]
      rfl
    · rw [hupdated, (override?_eq_some_iff environment _ root).mpr hroot]
      exact congrArg some (tidyRoot_tidyRoot root)
    · rw [override?, Function.update_of_ne (by decide)]
      rfl

/-- An environment stands for a configuration unless it gives a capacity that is no integer, or an
integer below one. Nothing but the three variables matters to it, and nothing but the three settings
differs from the default configuration. A root that is given leads to the same paths and failures as
it would with all its slashes, and is configured as it is from then on. -/
theorem ofEnvironment_configures (environment : Text → Option Text) :
    (∀ other : Text → Option Text,
        (∀ name ∈ [promptVariable, procRootVariable, pathCapacityVariable],
          other name = environment name) →
        ofEnvironment other = ofEnvironment environment)
      ∧ (∀ error, ofEnvironment environment = .error error ↔ IsRefused environment error)
      ∧ (∀ config, ofEnvironment environment = .ok config → Configures environment config
        ∧ ∀ root, Overrides environment procRootVariable root → KeepsRoot environment root config) := by
  refine ⟨?_, ofEnvironment_eq_error_iff, ?_⟩
  · intro other hsame
    have hoverride : ∀ name ∈ [promptVariable, procRootVariable, pathCapacityVariable],
        override? other name = override? environment name := fun name hname => by
      rw [override?, override?, hsame name hname]
    exact ofEnvironment_congr (hoverride _ (by simp)) (congrArg _ (hoverride _ (by simp)))
      (hoverride _ (by simp))
  · intro config h
    exact ⟨configures_of_ofEnvironment h, fun root hroot => keepsRoot_of_overrides hroot h⟩

def slashed (name : Text) : Option Text :=
  if name = procRootVariable then some "//p//"
  else if name = pathCapacityVariable then some " +\u0967\u0966_0\n"
  else none

/-- Only the slashes at the end are left off, and the digits are read as one number. -/
theorem ofEnvironment_configures_slashed :
    ∃ config, ofEnvironment slashed = .ok config ∧ config.procRoot = "//p"
      ∧ config.pathCapacity = 100 ∧ Configures slashed config
      ∧ KeepsRoot slashed "//p//" config := by
  obtain ⟨_, _, hconfigures⟩ := ofEnvironment_configures slashed
  let config : Config := ⟨{ procRoot := "//p", pathCapacity := 100 }, by decide, by decide⟩
  have hok : ofEnvironment slashed = .ok config := by decide +kernel
  have hroot : Overrides slashed procRootVariable "//p//" := ⟨rfl, by decide⟩
  obtain ⟨hsettings, hkeeps⟩ := hconfigures config hok
  exact ⟨config, hok, rfl, rfl, hsettings, hkeeps _ hroot⟩

end Config

end LineShell
