import Arbiter.Config
import Arbiter.Proofs.Text.Trimming
import Arbiter.Proofs.Text.WholeNumber

/-!
The configuration of a process, setting by setting. Each setting is read from one variable and from
nothing else; what cannot be read, and what may not be set, leaves the standard value in place and
is warned of once.
-/

namespace Arbiter

namespace Config

/-- The text, trimmed, is a number of milliseconds that 64 bits hold. -/
def IsMillis (text : String) (d : Duration) : Prop :=
  ∃ cs n, Text.Trims text.toList cs ∧ Text.IsUnsigned cs n ∧ n < UInt64.size ∧ d = .ofMillis n

/-- The text, trimmed, is the word of the scope. -/
def IsScope (text : String) (scope : DiscoveryScope) : Prop :=
  Text.Trims text.toList (Literal.word scope).toList

/-- A setting: its variable, what a text says about it, the values that it does not take, and the
one that it has unless another is set. -/
structure Setting (α : Type) where
  variableName : String
  Reads : String → α → Prop
  Barred : α → Prop := fun _ => False
  standard : α

def timeoutSetting : Setting Duration :=
  { variableName := timeoutVariable, Reads := IsMillis, standard := .ofMillis 600000 }

def retrySetting : Setting Duration :=
  { variableName := retryVariable, Reads := IsMillis, Barred := (· = .zero)
    standard := .ofMillis 10000 }

def cacheSetting : Setting Duration :=
  { variableName := cacheVariable, Reads := IsMillis, standard := .zero }

def scopeSetting : Setting DiscoveryScope :=
  { variableName := scopeVariable, Reads := IsScope, standard := .localThenGlobal }

/-- The value that an environment gives to a setting, and the warnings about it. -/
structure Setting.Yields {α : Type} (s : Setting α) (env : Environment) (value : α)
    (warnings : List Warning) : Prop where
  unset : env s.variableName = none → value = s.standard ∧ warnings = []
  taken : ∀ text a, env s.variableName = some text → s.Reads text a → ¬ s.Barred a →
    value = a ∧ warnings = []
  barred : ∀ text a, env s.variableName = some text → s.Reads text a → s.Barred a →
    value = s.standard ∧ warnings = [.zeroInterval s.variableName]
  malformed : ∀ text, env s.variableName = some text → (∀ a, ¬ s.Reads text a) →
    value = s.standard ∧ warnings = [.malformed s.variableName text]

theorem le_maxWord_iff {n : Nat} : n ≤ Text.maxWord ↔ n < UInt64.size :=
  Nat.lt_succ_iff.symm

theorem millis?_trim_eq_some_iff {text : String} {d : Duration} :
    millis? (Text.trim text) = some d ↔ IsMillis text d := by
  have htrims : Text.Trims text.toList (Text.trim text).toList := Text.trim_eq_iff.mp rfl
  unfold millis? Text.word?
  simp only [Option.map_eq_some_iff, Text.unsigned?_eq_some_iff, le_maxWord_iff]
  constructor
  · rintro ⟨n, ⟨hn, hlt⟩, rfl⟩
    exact ⟨_, n, htrims, hn, hlt, rfl⟩
  · rintro ⟨cs, n, hcs, hn, hlt, rfl⟩
    obtain rfl : (Text.trim text).toList = cs := by
      rw [← htrims.eq_trimChars, hcs.eq_trimChars]
    exact ⟨n, ⟨hn, hlt⟩, rfl⟩

theorem ofWord?_trim_eq_some_iff {text : String} {scope : DiscoveryScope} :
    Literal.ofWord? (Text.trim text) = some scope ↔ IsScope text scope := by
  rw [IsScope, ← Text.trim_eq_iff]
  constructor
  · intro h
    have hword := List.find?_some h
    exact (beq_iff_eq.mp hword).symm
  · intro h
    rw [h]
    cases scope <;> decide

section Values

variable {α : Type} {s : Setting α} {env other : Environment} {name text : String}
  {read : String → Option α} {a : α}

theorem value?_of_unset (h : env name = none) : value? env name read = (none, []) := by
  simp only [value?, h]

theorem value?_of_read (h : env name = some text) (hread : read (Text.trim text) = some a) :
    value? env name read = (some a, []) := by
  simp only [value?, h, hread]

theorem value?_of_unread (h : env name = some text) (hread : read (Text.trim text) = none) :
    value? env name read = (none, [.malformed name text]) := by
  simp only [value?, h, hread]

/-- Other variables make no difference. -/
theorem value?_congr (h : other name = env name) : value? other name read = value? env name read := by
  unfold value?
  rw [h]

theorem unread_of_forall_not (hread : ∀ text a, read (Text.trim text) = some a ↔ s.Reads text a)
    (h : ∀ a, ¬ s.Reads text a) : read (Text.trim text) = none :=
  Option.eq_none_iff_forall_ne_some.mpr fun a ha => h a ((hread text a).mp ha)

/-- What a setting comes to that takes every value it reads. -/
theorem value?_yields (hread : ∀ text a, read (Text.trim text) = some a ↔ s.Reads text a)
    (hbarred : ∀ a, ¬ s.Barred a) :
    s.Yields env ((value? env s.variableName read).1.getD s.standard)
      (value? env s.variableName read).2 where
  unset h := by
    rw [value?_of_unset h]
    exact ⟨rfl, rfl⟩
  taken text a h ha _ := by
    rw [value?_of_read h ((hread text a).mpr ha)]
    exact ⟨rfl, rfl⟩
  barred _ a _ _ hbar := absurd hbar (hbarred a)
  malformed text h hno := by
    rw [value?_of_unread h (unread_of_forall_not hread hno)]
    exact ⟨rfl, rfl⟩

end Values

section Retry

variable {env other : Environment} {found : Option Duration} {warnings : List Warning}

theorem retryInterval?_of_value? (h : value? env retryVariable millis? = (found, warnings)) :
    retryInterval? env =
      if found = some .zero then (none, warnings ++ [.zeroInterval retryVariable])
      else (found, warnings) := by
  rw [retryInterval?, h]
  cases found with
  | none => rfl
  | some d => simp only [Option.some.injEq]

theorem retryInterval?_congr (h : other retryVariable = env retryVariable) :
    retryInterval? other = retryInterval? env := by
  unfold retryInterval?
  rw [value?_congr h]

theorem retryInterval?_yields (env : Environment) :
    retrySetting.Yields env ((retryInterval? env).1.getD retrySetting.standard)
      (retryInterval? env).2 where
  unset h := by
    rw [retryInterval?_of_value? (value?_of_unset h)]
    exact ⟨rfl, rfl⟩
  taken text d h hd hbar := by
    rw [retryInterval?_of_value? (value?_of_read h (millis?_trim_eq_some_iff.mpr hd)),
      if_neg (by rwa [Option.some.injEq])]
    exact ⟨rfl, rfl⟩
  barred text d h hd hbar := by
    rw [retryInterval?_of_value? (value?_of_read h (millis?_trim_eq_some_iff.mpr hd)),
      if_pos (congrArg some hbar)]
    exact ⟨rfl, rfl⟩
  malformed text h hno := by
    have hunread := unread_of_forall_not (fun _ _ => millis?_trim_eq_some_iff) hno
    rw [retryInterval?_of_value? (value?_of_unread h hunread)]
    exact ⟨rfl, rfl⟩

end Retry

/-- A value is the standard one, or one that was read and is not barred. -/
theorem Setting.Yields.value_eq {α : Type} {s : Setting α} {env : Environment} {value : α}
    {warnings : List Warning} (h : s.Yields env value warnings) :
    value = s.standard ∨ ∃ text, s.Reads text value ∧ ¬ s.Barred value := by
  cases henv : env s.variableName with
  | none => exact .inl (h.unset henv).1
  | some text =>
    by_cases hreads : ∃ a, s.Reads text a
    case neg => exact .inl (h.malformed text henv fun a ha => hreads ⟨a, ha⟩).1
    case pos =>
      obtain ⟨a, ha⟩ := hreads
      by_cases hbarred : s.Barred a
      case pos => exact .inl (h.barred text a henv ha hbarred).1
      case neg =>
        obtain rfl := (h.taken text a henv ha hbarred).1
        exact .inr ⟨text, ha, hbarred⟩

/-- Attempts are at least a millisecond apart. -/
theorem Setting.Yields.ofMillis_one_le {env : Environment} {interval : Duration}
    {warnings : List Warning} (h : retrySetting.Yields env interval warnings) :
    .ofMillis 1 ≤ interval := by
  rcases h.value_eq with rfl | ⟨text, ⟨cs, n, -, -, -, rfl⟩, hpos⟩
  · decide
  · have hne : n ≠ 0 := by
      rintro rfl
      exact hpos rfl
    show 1 * 1000000 ≤ n * 1000000
    omega

theorem ofEnvironment_eq (env : Environment) :
    ofEnvironment env =
      ({ timeout := (value? env timeoutVariable millis?).1.getD timeoutSetting.standard
         retryInterval := (retryInterval? env).1.getD retrySetting.standard
         cacheMaxAge := (value? env cacheVariable millis?).1.getD cacheSetting.standard
         scope := (value? env scopeVariable Literal.ofWord?).1.getD scopeSetting.standard
         gbids := ((env gbidsVariable).map gbidsOf).getD [] },
       (value? env timeoutVariable millis?).2 ++ (retryInterval? env).2 ++
         (value? env cacheVariable millis?).2 ++
         (value? env scopeVariable (Literal.ofWord? : String → Option DiscoveryScope)).2) :=
  rfl

/-- Every field is read from one variable, whatever the other variables are set to. -/
theorem ofEnvironment_congr (env other : Environment) :
    (other timeoutVariable = env timeoutVariable →
      (ofEnvironment other).1.timeout = (ofEnvironment env).1.timeout) ∧
    (other retryVariable = env retryVariable →
      (ofEnvironment other).1.retryInterval = (ofEnvironment env).1.retryInterval) ∧
    (other cacheVariable = env cacheVariable →
      (ofEnvironment other).1.cacheMaxAge = (ofEnvironment env).1.cacheMaxAge) ∧
    (other scopeVariable = env scopeVariable →
      (ofEnvironment other).1.scope = (ofEnvironment env).1.scope) ∧
    (other gbidsVariable = env gbidsVariable →
      (ofEnvironment other).1.gbids = (ofEnvironment env).1.gbids) := by
  simp only [ofEnvironment_eq]
  refine ⟨fun h => ?_, fun h => ?_, fun h => ?_, fun h => ?_, fun h => ?_⟩
  · rw [value?_congr h]
  · rw [retryInterval?_congr h]
  · rw [value?_congr h]
  · rw [value?_congr h]
  · rw [h]

/-- The configuration of an environment, setting by setting. -/
theorem ofEnvironment_settings (env : Environment) :
    ∃ config timeoutWarnings retryWarnings cacheWarnings scopeWarnings,
      ofEnvironment env =
        (config, timeoutWarnings ++ retryWarnings ++ cacheWarnings ++ scopeWarnings) ∧
      timeoutSetting.Yields env config.timeout timeoutWarnings ∧
      retrySetting.Yields env config.retryInterval retryWarnings ∧
      cacheSetting.Yields env config.cacheMaxAge cacheWarnings ∧
      scopeSetting.Yields env config.scope scopeWarnings ∧
      (∀ other : Environment,
        (other timeoutVariable = env timeoutVariable →
          (ofEnvironment other).1.timeout = config.timeout) ∧
        (other retryVariable = env retryVariable →
          (ofEnvironment other).1.retryInterval = config.retryInterval) ∧
        (other cacheVariable = env cacheVariable →
          (ofEnvironment other).1.cacheMaxAge = config.cacheMaxAge) ∧
        (other scopeVariable = env scopeVariable →
          (ofEnvironment other).1.scope = config.scope) ∧
        (other gbidsVariable = env gbidsVariable →
          (ofEnvironment other).1.gbids = config.gbids)) ∧
      .ofMillis 1 ≤ config.retryInterval ∧
      ∀ strategy, config.request strategy =
        { strategy, timeout := config.timeout, retryInterval := config.retryInterval
          cacheMaxAge := config.cacheMaxAge, scope := config.scope
          mustSupportOnChange := false, parameters := [] } := by
  have hmillis (text : String) (d : Duration) :
      millis? (Text.trim text) = some d ↔ IsMillis text d := millis?_trim_eq_some_iff
  have hwords (text : String) (scope : DiscoveryScope) :
      Literal.ofWord? (Text.trim text) = some scope ↔ IsScope text scope := ofWord?_trim_eq_some_iff
  have htimeout : timeoutSetting.Yields env (ofEnvironment env).1.timeout
      (value? env timeoutVariable millis?).2 := by
    rw [ofEnvironment_eq]
    exact value?_yields hmillis fun _ => id
  have hretry : retrySetting.Yields env (ofEnvironment env).1.retryInterval
      (retryInterval? env).2 := retryInterval?_yields env
  have hcache : cacheSetting.Yields env (ofEnvironment env).1.cacheMaxAge
      (value? env cacheVariable millis?).2 := by
    rw [ofEnvironment_eq]
    exact value?_yields hmillis fun _ => id
  have hscope : scopeSetting.Yields env (ofEnvironment env).1.scope
      (value? env scopeVariable (Literal.ofWord? : String → Option DiscoveryScope)).2 := by
    rw [ofEnvironment_eq]
    exact value?_yields hwords fun _ => id
  exact ⟨(ofEnvironment env).1, _, _, _, _, ofEnvironment_eq env, htimeout, hretry, hcache, hscope,
    ofEnvironment_congr env, hretry.ofMillis_one_le, fun _ => rfl⟩

example :
    ofEnvironment (.ofList [(timeoutVariable, " +007\n"), (retryVariable, "0"),
        (scopeVariable, "global_only")]) =
      ({ timeout := .ofMillis 7 },
        [.zeroInterval retryVariable, .malformed scopeVariable "global_only"]) := by
  decide

end Config

end Arbiter
