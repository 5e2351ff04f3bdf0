import Arbiter.Resolve
import Arbiter.Proofs.Arbitration.Steady
import Arbiter.Proofs.Registry

/-!
What a resolution comes to. `verdict` says it as a function of the options, the fixture, the
configuration and the date, without attempts or time; the arbitration agrees with it.
-/

namespace Arbiter.Resolve

open Arbitration Discovery

namespace Options

variable (o : Options) (c : Config)

def effectiveTimeout : Duration :=
  (o.timeoutMillis.map Duration.ofMillis).getD c.timeout

def effectiveInterval : Duration :=
  (o.retryMillis.map Duration.ofMillis).getD c.retryInterval

def effectiveScope : DiscoveryScope :=
  o.scope.getD c.scope

def target : Target :=
  match o.strategy with
  | .fixedParticipant => .participant (o.participant.getD "") o.interface
  | .keyword | .highestPriority | .lastSeen => .provider o.domains o.interface

def policy : Policy :=
  match o.strategy with
  | .fixedParticipant => .fixedParticipant (o.participant.getD "")
  | .keyword => .keyword (o.keyword.getD "")
  | .highestPriority => .highestPriority o.requireOnChange
  | .lastSeen => .lastSeen

/-- What is wrong if a parameter of the strategy was not given, or is empty. -/
def missing? (name : String) (value : Option String) : Option String :=
  if (value.getD "").isEmpty then
    some ("strategy " ++ Literal.word o.strategy ++ " requires the custom parameter " ++ name)
  else none

def noDomains? : Option String :=
  if o.domains.isEmpty then some ("no domains given for interface " ++ o.interface) else none

/-- What is wrong with the options, first of all. -/
def misconfiguration? : Option String :=
  match o.strategy with
  | .fixedParticipant => o.missing? participantParameter o.participant
  | .keyword => (o.missing? keywordParameter o.keyword).or o.noDomains?
  | .highestPriority | .lastSeen => o.noDomains?

section Request

variable {o c}

@[simp] theorem request_strategy : (o.request c).strategy = o.strategy := by
  unfold request
  cases o.keyword <;> cases o.participant <;> rfl

@[simp] theorem request_timeout : (o.request c).timeout = o.effectiveTimeout c := by
  unfold request
  cases o.keyword <;> cases o.participant <;> rfl

@[simp] theorem request_retryInterval : (o.request c).retryInterval = o.effectiveInterval c := by
  unfold request
  cases o.keyword <;> cases o.participant <;> rfl

@[simp] theorem request_scope : (o.request c).scope = o.effectiveScope c := by
  unfold request
  cases o.keyword <;> cases o.participant <;> rfl

@[simp] theorem request_mustSupportOnChange :
    (o.request c).mustSupportOnChange = o.requireOnChange := by
  unfold request
  cases o.keyword <;> cases o.participant <;> rfl

@[simp] theorem request_keyword : (o.request c).parameter? keywordParameter = o.keyword := by
  have hne : keywordParameter ≠ participantParameter := by decide
  unfold request
  cases o.keyword <;> cases o.participant <;>
    simp [settings, Config.request, Request.withKeyword, Request.withParticipant,
      Request.withParameter, Request.parameter?, Parameters.insert, Parameters.get?, hne, hne.symm]

@[simp] theorem request_participant :
    (o.request c).parameter? participantParameter = o.participant := by
  have hne : keywordParameter ≠ participantParameter := by decide
  unfold request
  cases o.keyword <;> cases o.participant <;>
    simp [settings, Config.request, Request.withKeyword, Request.withParticipant,
      Request.withParameter, Request.parameter?, Parameters.insert, Parameters.get?, hne]

end Request

/-- The plan that options without fault lead to. -/
def soundPlan : Plan where
  target := o.target
  required := o.version
  policy := o.policy
  request := o.request c
  gbids := o.backends c

theorem requiredParameter_eq {name : String} {value : Option String}
    (h : (o.request c).parameter? name = value) :
    Plan.requiredParameter (o.request c) name =
      match o.missing? name value with
      | some text => .error (.invalidConfiguration text)
      | none => .ok (value.getD "") := by
  rw [Plan.requiredParameter, h, missing?]
  cases value with
  | none => simp [Plan.requiredParameter.missing]
  | some text =>
    by_cases hempty : text.isEmpty
    case pos => simp [hempty, Plan.requiredParameter.missing]
    case neg => simp [hempty]

theorem providerTarget_eq :
    Plan.providerTarget o.domains o.interface =
      match o.noDomains? with
      | some text => .error (.invalidConfiguration text)
      | none => .ok (.provider o.domains o.interface) := by
  rw [Plan.providerTarget, noDomains?]
  by_cases hempty : o.domains.isEmpty
  case pos => simp [hempty]
  case neg => simp [hempty]

theorem plan_eq : o.plan c =
    match o.misconfiguration? with
    | some text => .error (.invalidConfiguration text)
    | none => .ok (o.soundPlan c) := by
  have htarget := o.providerTarget_eq
  unfold plan Plan.make Plan.aim misconfiguration? soundPlan target policy
  rw [request_strategy]
  cases o.strategy with
  | fixedParticipant =>
    simp only [o.requiredParameter_eq c request_participant]
    cases o.missing? participantParameter o.participant <;> rfl
  | keyword =>
    simp only [o.requiredParameter_eq c request_keyword, htarget]
    cases o.missing? keywordParameter o.keyword with
    | some text => rfl
    | none => cases o.noDomains? <;> rfl
  | highestPriority =>
    simp only [htarget, request_mustSupportOnChange]
    cases o.noDomains? <;> rfl
  | lastSeen =>
    simp only [htarget]
    cases o.noDomains? <;> rfl

end Options

section Verdict

variable (o : Options) (f : Fixture) (c : Config) (date : Int64)

/-- The text of a lookup that failed with a code. -/
def failureText (code : ErrorCode) (ending : String) : String :=
  "Unable to lookup provider (" ++ o.target.toString ++ ", gbids: [" ++
    Text.join ", " (o.backends c) ++ "]) from discovery. Error: " ++ "DiscoveryError: " ++
    code.toString ++ ending

/-- The entry of the fixed participant that is found, if there is one. -/
def participant? : Option Entry :=
  (f.entries.find? fun e => e.participant == o.participant.getD "" && e.interface == o.interface &&
    !e.expiredAt date).filter fun e => (o.effectiveScope c).admits e.isLocal e

/-- The entries that are found in the domains. -/
def providers : List Entry :=
  let valid := f.entries.filter fun e =>
    e.interface == o.interface && o.domains.contains e.domain && !e.expiredAt date
  valid.filter ((o.effectiveScope c).admits (valid.any (·.isLocal)))

def participantVerdict : Outcome :=
  match participant? o f c date with
  | some e =>
    if e.version.serves o.version then .ok e
    else .error (.noCompatibleProvider o.target [e.version])
  | none => .error (.lookupFailed (failureText o c .noEntryForParticipant ", continuing."))

def providerVerdict : Outcome :=
  let found := providers o f c date
  let fitting := found.filter (·.version.serves o.version)
  match o.policy.select fitting with
  | some e => .ok e
  | none => .error (if fitting = [] ∧ found ≠ [] then
      .noCompatibleProvider o.target (VersionSet.ofList (found.map (·.version)))
      else .noEntries o.target)

/-- What the resolution of the options comes to at a date. -/
def verdict : Outcome :=
  match o.misconfiguration? with
  | some text => .error (.invalidConfiguration text)
  | none =>
    match (o.backends c).find? (Registry.refuses f.knownGbids) with
    | some gbid =>
      .error (.lookupFailed (failureText o c (Registry.refusal gbid) ", giving up."))
    | none =>
      match o.strategy with
      | .fixedParticipant => participantVerdict o f c date
      | .keyword | .highestPriority | .lastSeen => providerVerdict o f c date

/-- What the registry of the fixture replies to every lookup. -/
def steadyReply : Reply :=
  f.registry.answer date (queryOf (o.soundPlan c) .zero)

end Verdict

variable {o : Options} {f : Fixture} {c : Config} {date : Int64}

theorem failureText_eq (code : ErrorCode) (ending : String) :
    failureText o c code ending = codeFailure (o.soundPlan c) code ++ ending := by
  unfold failureText codeFailure lookupFailure
  simp only [String.append_assoc, Options.soundPlan]

theorem steadyReply_of_refused {gbid : String}
    (hrefused : (o.backends c).find? (Registry.refuses f.knownGbids) = some gbid) :
    steadyReply o f c date = .error (.application (Registry.refusal gbid)) := by
  have hfault := Registry.gbidsFault_eq_find? f.knownGbids (o.backends c)
  rw [hrefused, Option.map_some] at hfault
  exact Registry.answer_of_fault hfault

theorem steadyReply_participant (hs : o.strategy = .fixedParticipant)
    (hnone : (o.backends c).find? (Registry.refuses f.knownGbids) = none) :
    steadyReply o f c date = match participant? o f c date with
      | some e => .ok [e]
      | none => .error (.application .noEntryForParticipant) := by
  have hfault := Registry.gbidsFault_eq_find? f.knownGbids (o.backends c)
  rw [hnone, Option.map_none] at hfault
  have htarget : o.target = .participant (o.participant.getD "") o.interface := by
    rw [Options.target, hs]
  have hscope : (queryOf (o.soundPlan c) .zero).qos.scope = o.effectiveScope c :=
    Options.request_scope
  rw [steadyReply, Registry.answer_participant hfault htarget, hscope]
  rfl

theorem steadyReply_providers (hs : o.strategy ≠ .fixedParticipant)
    (hnone : (o.backends c).find? (Registry.refuses f.knownGbids) = none) :
    steadyReply o f c date = .ok (providers o f c date) := by
  have hfault := Registry.gbidsFault_eq_find? f.knownGbids (o.backends c)
  rw [hnone, Option.map_none] at hfault
  have htarget : o.target = .provider o.domains o.interface := by
    rw [Options.target]
    cases hstrategy : o.strategy with
    | fixedParticipant => exact absurd hstrategy hs
    | keyword | highestPriority | lastSeen => rfl
  have hscope : (queryOf (o.soundPlan c) .zero).qos.scope = o.effectiveScope c :=
    Options.request_scope
  rw [steadyReply, Registry.answer_provider hfault htarget, hscope]
  rfl

theorem participant_eq_of_found {e : Entry} (hfound : participant? o f c date = some e) :
    e.participant = o.participant.getD "" := by
  obtain ⟨hfind, -⟩ := Option.filter_eq_some_iff.mp hfound
  have hsome := List.find?_some hfind
  simp only [Bool.and_eq_true, beq_iff_eq] at hsome
  exact hsome.1.1

theorem conclude_participant (hs : o.strategy = .fixedParticipant) :
    conclude (o.soundPlan c) [match participant? o f c date with
      | some e => .ok [e]
      | none => .error (.application .noEntryForParticipant)] = participantVerdict o f c date := by
  have hpolicy : (o.soundPlan c).policy = .fixedParticipant (o.participant.getD "") := by
    change o.policy = _
    rw [Options.policy, hs]
  rw [participantVerdict]
  cases hfound : participant? o f c date with
  | none =>
    dsimp only
    rw [conclude_application, failureText_eq]
    rfl
  | some e =>
    have hid := participant_eq_of_found hfound
    have hrequired : (o.soundPlan c).required = o.version := rfl
    dsimp only
    rw [conclude_ok, hpolicy, hrequired]
    by_cases hserves : e.version.serves o.version
    case pos => simp [compatibleEntries, hserves, Policy.select, hid]
    case neg =>
      simp [compatibleEntries, hserves, Policy.select, VersionSet.ofList, VersionSet.insert,
        Options.soundPlan]

theorem conclude_steadyReply (hsound : o.misconfiguration? = none) :
    conclude (o.soundPlan c) [steadyReply o f c date] = verdict o f c date := by
  rw [verdict, hsound]
  cases hrefused : (o.backends c).find? (Registry.refuses f.knownGbids) with
  | some gbid =>
    rw [steadyReply_of_refused hrefused, conclude_application, Registry.isRetryable_refusal]
    dsimp only
    rw [failureText_eq]
    rfl
  | none =>
    cases hs : o.strategy with
    | fixedParticipant => rw [steadyReply_participant hs hrefused, conclude_participant hs]
    | keyword | highestPriority | lastSeen =>
      rw [steadyReply_providers (by simp [hs]) hrefused, conclude_ok]
      rfl

/-- The lookups that a resolution made. -/
def Report.lookups (r : Report) : List (Query × Instant) :=
  r.happenings.filterMap Happening.lookup?

theorem runThrough_of_misconfiguration {text : String} (hfault : o.misconfiguration? = some text)
    (dates : Nat → Int64) (interrupt : Option Duration) :
    runThrough o f c dates interrupt =
      { outcome := some (.error (.invalidConfiguration text)) } := by
  rw [runThrough, o.plan_eq, hfault]

/-- Options without fault are resolved by playing an arbitration through. -/
theorem runThrough_of_sound (hsound : o.misconfiguration? = none) (dates : Nat → Int64)
    (interrupt : Option Duration) :
    let result := (Session.fresh (o.soundPlan c) (.ofDatedRegistry f.registry dates) 0).arbitrate
      interrupt
    (runThrough o f c dates interrupt).outcome = result.2 ∧
      (runThrough o f c dates interrupt).lookups = result.1.world.lookups := by
  have hfresh : ({ plan := o.soundPlan c, service := .ofDatedRegistry f.registry dates } : Session) =
      Session.fresh (o.soundPlan c) (.ofDatedRegistry f.registry dates) 0 := rfl
  rw [runThrough, o.plan_eq, hsound]
  dsimp only
  rw [hfresh]
  generalize (Session.fresh (o.soundPlan c) (.ofDatedRegistry f.registry dates) 0).arbitrate
    interrupt = result
  obtain ⟨ended, outcome⟩ := result
  exact ⟨rfl, rfl⟩

/-- What the registry replies hangs on nothing that changes from lookup to lookup. -/
theorem answer_queryOf (remaining : Duration) :
    f.registry.answer date (queryOf (o.soundPlan c) remaining) = steadyReply o f c date := by
  rw [steadyReply, Registry.answer, Registry.answer]
  rfl

/-- While no entry expires, each exchange brings the same reply. -/
theorem exchanges_steady {dates : Nat → Int64} :
    let result := (Session.fresh (o.soundPlan c) (.ofDatedRegistry f.registry dates) 0).arbitrate
      none
    (∀ k < result.1.world.lookups.length, ∀ e ∈ f.entries,
      e.expiredAt (dates k) = e.expiredAt (dates 0)) →
    ∀ x ∈ result.1.exchanges, x.reply = steadyReply o f c (dates 0) := by
  intro result unexpired x hx
  obtain ⟨more, -, -, hs, -⟩ := Session.arbitrate_ends (o.soundPlan c)
    (.ofDatedRegistry f.registry dates) 0 none
  have hworld : result.1.world = World.run (o.soundPlan c) {} (Session.opening 0 ++ more) := by
    rw [show result.1.world = result.1.toClocked.world from rfl, hs, Clocked.run_world]
  have hservice : result.1.service = .ofDatedRegistry f.registry dates := by
    rw [show result.1.service = result.1.toClocked.service from rfl, hs, Clocked.run_service]
  obtain ⟨k, lookup, hk, hmem, rfl⟩ := Clocked.mem_exchanges hx
  rw [hworld] at hmem
  obtain ⟨remaining, hquery⟩ := World.lookup_eq_queryOf (o.soundPlan c) _ lookup hmem
  rw [Exchange.reply, hservice, hquery]
  change f.registry.answer (dates k) (queryOf (o.soundPlan c) remaining) = _
  rw [Registry.answer_congr (unexpired k hk), answer_queryOf]

/-- The outcome is the verdict, and one lookup is enough where the reply is decisive. -/
theorem outcome_eq_verdict {dates : Nat → Int64}
    (timeout : .zero < o.effectiveTimeout c) (positive : .zero < o.effectiveInterval c)
    (whole : (o.effectiveInterval c).IsWhole)
    (countable : (o.effectiveTimeout c).nanos ⌈/⌉ (o.effectiveInterval c).nanos < attemptLimit)
    (unexpired : ∀ k < (runThrough o f c dates none).lookups.length, ∀ e ∈ f.entries,
      e.expiredAt (dates k) = e.expiredAt (dates 0)) :
    (runThrough o f c dates none).outcome = some (verdict o f c (dates 0)) ∧
      (o.misconfiguration? = none →
        (decision? (o.soundPlan c) (steadyReply o f c (dates 0))).isSome →
          (runThrough o f c dates none).lookups.length = 1) := by
  cases hfault : o.misconfiguration? with
  | some text =>
    rw [runThrough_of_misconfiguration hfault, verdict, hfault]
    exact ⟨rfl, nofun⟩
  | none =>
    obtain ⟨houtcome, hlookups⟩ := runThrough_of_sound (f := f) (c := c) hfault dates none
    rw [hlookups] at unexpired
    have htimeout : (o.soundPlan c).request.timeout = o.effectiveTimeout c := Options.request_timeout
    have hinterval : (o.soundPlan c).request.retryInterval = o.effectiveInterval c :=
      Options.request_retryInterval
    rw [← htimeout] at timeout countable
    rw [← hinterval] at positive whole countable
    obtain ⟨hresult, -, hone⟩ := Session.arbitrate_steady
      (Service.immediate_ofDatedRegistry f.registry dates) timeout positive whole countable
      (exchanges_steady unexpired)
    rw [houtcome, hlookups, hresult, conclude_steadyReply hfault]
    exact ⟨rfl, fun _ => hone⟩

theorem isSome_decision?_of_refused {gbid : String}
    (hmem : gbid ∈ o.backends c) (hrefuses : Registry.refuses f.knownGbids gbid) :
    (decision? (o.soundPlan c) (steadyReply o f c date)).isSome := by
  obtain ⟨first, hfirst⟩ := Option.isSome_iff_exists.mp
    (List.find?_isSome.mpr ⟨gbid, hmem, hrefuses⟩)
  rw [steadyReply_of_refused hfirst, decision?_application, Registry.isRetryable_refusal]
  rfl

theorem isSome_decision?_of_ok (hsound : o.misconfiguration? = none) {e : Entry}
    (hok : verdict o f c date = .ok e) :
    (decision? (o.soundPlan c) (steadyReply o f c date)).isSome := by
  rw [← conclude_steadyReply hsound] at hok
  obtain ⟨es, hmem, hselect⟩ := World.exists_select_of_conclude hok
  rw [← List.mem_singleton.mp hmem, decision?_ok, hselect]
  rfl

/-- A resolution that nobody interrupts and during which no entry expires comes to its verdict,
without a lookup for faulty options and by one where a backend refuses or a provider is found. -/
theorem resolves_to_verdict (o : Options) (f : Fixture) (c : Config) (dates : Nat → Int64)
    (timeout : .zero < o.effectiveTimeout c) (positive : .zero < o.effectiveInterval c)
    (whole : (o.effectiveInterval c).IsWhole)
    (countable : (o.effectiveTimeout c).nanos ⌈/⌉ (o.effectiveInterval c).nanos < attemptLimit)
    (unexpired : ∀ k < (runThrough o f c dates none).lookups.length, ∀ e ∈ f.entries,
      e.expiredAt (dates k) = e.expiredAt (dates 0)) :
    let report := runThrough o f c dates none
    report.outcome = some (verdict o f c (dates 0)) ∧
      (o.misconfiguration? ≠ none → report.lookups = []) ∧
      (o.misconfiguration? = none →
        (∃ gbid ∈ o.backends c, Registry.refuses f.knownGbids gbid) ∨
          (∃ e, verdict o f c (dates 0) = .ok e) →
        report.lookups.length = 1) := by
  intro report
  obtain ⟨houtcome, hone⟩ := outcome_eq_verdict timeout positive whole countable unexpired
  refine ⟨houtcome, fun hne => ?_, fun hsound hdecisive => hone hsound ?_⟩
  · obtain ⟨text, hfault⟩ := Option.ne_none_iff_exists'.mp hne
    have hreport : report = { outcome := some (.error (.invalidConfiguration text)) } :=
      runThrough_of_misconfiguration hfault dates none
    rw [hreport]
    rfl
  · rcases hdecisive with ⟨gbid, hmem, hrefuses⟩ | ⟨e, hok⟩
    · exact isSome_decision?_of_refused hmem hrefuses
    · exact isSome_decision?_of_ok hsound hok

/-- Options that ask for one participant, with time for two attempts. -/
def fixedRadio : Options where
  fixture := "radios.yaml"
  domains := ["vehicle"]
  interface := "radio"
  version := { major := 1, minor := 2 }
  strategy := .fixedParticipant
  participant := some "radio-1"
  timeoutMillis := some 150
  retryMillis := some 100

/-- The participant with a version that expired long ago, and with one that will not do. -/
def oldAndNewRadio : Fixture where
  entries :=
    [{ version := { major := 1, minor := 2 }, domain := "vehicle", interface := "radio",
       participant := "radio-1", expiry := 1000 },
     { version := { major := 2 }, domain := "home", interface := "radio",
       participant := "radio-1" }]

theorem oldAndNewRadio_incompatible :
    (runThrough fixedRadio oldAndNewRadio {} (fun _ => 2000) none).outcome =
      some (.error (.noCompatibleProvider (.participant "radio-1" "radio") [{ major := 2 }])) := by
  have hverdict : verdict fixedRadio oldAndNewRadio {} 2000 =
      .error (.noCompatibleProvider (.participant "radio-1" "radio") [{ major := 2 }]) := by
    decide +kernel
  rw [← hverdict]
  have countable : (fixedRadio.effectiveTimeout {}).nanos ⌈/⌉
      (fixedRadio.effectiveInterval {}).nanos < attemptLimit := by decide +kernel
  exact (resolves_to_verdict fixedRadio oldAndNewRadio {} (fun _ => 2000) (by decide) (by decide)
    (Duration.isWhole_ofMillis 100) countable fun _ _ _ _ => rfl).1

section OnChange

/-- The policy of highest priority is the only one that looks at whether subscriptions on change are
required. -/
theorem verdict_requireOnChange (hne : o.strategy ≠ .highestPriority) (required : Bool) :
    verdict { o with requireOnChange := required } f c date = verdict o f c date := by
  have hpolicy : ({ o with requireOnChange := required } : Options).policy = o.policy := by
    unfold Options.policy
    dsimp only
    cases hs : o.strategy with
    | highestPriority => exact absurd hs hne
    | keyword | fixedParticipant | lastSeen => rfl
  have hprovider : providerVerdict { o with requireOnChange := required } f c date =
      providerVerdict o f c date := by
    unfold providerVerdict
    rw [hpolicy]
    rfl
  unfold verdict
  rw [hprovider]
  rfl

theorem supportsOnChange_of_outcome {dates : Nat → Int64} {interrupt : Option Duration} {e : Entry}
    (hstrategy : o.strategy = .highestPriority) (required : o.requireOnChange)
    (hok : (runThrough o f c dates interrupt).outcome = some (.ok e)) : e.qos.supportsOnChange := by
  cases hfault : o.misconfiguration? with
  | some text =>
    rw [runThrough_of_misconfiguration hfault] at hok
    simp at hok
  | none =>
    rw [(runThrough_of_sound hfault dates interrupt).1] at hok
    have htold := Session.mem_told_of_arbitrate hok
    obtain ⟨more, -, -, hs, -⟩ := Session.arbitrate_ends (o.soundPlan c)
      (.ofDatedRegistry f.registry dates) 0 interrupt
    rw [hs, Clocked.run_world] at htold
    obtain ⟨es, -, hselect⟩ := World.selected_of_told (o.soundPlan c) _ htold
    have hpolicy : (o.soundPlan c).policy = .highestPriority true := by
      change o.policy = _
      rw [Options.policy, hstrategy, required]
    rw [hpolicy] at hselect
    exact Policy.supportsOnChange_of_select hselect

/-- What a resolution that nobody interrupts comes to does not hang on whether support for
subscriptions on change is required, unless the strategy is highest priority. -/
theorem outcome_requireOnChange (hne : o.strategy ≠ .highestPriority)
    (timeout : .zero < o.effectiveTimeout c) (positive : .zero < o.effectiveInterval c)
    (whole : (o.effectiveInterval c).IsWhole)
    (countable : (o.effectiveTimeout c).nanos ⌈/⌉ (o.effectiveInterval c).nanos < attemptLimit)
    (required : Bool) :
    (run { o with requireOnChange := required } f c date none).outcome =
      some (verdict o f c date) := by
  let dates : Nat → Int64 := fun _ => date
  have unexpired : ∀ k < (runThrough { o with requireOnChange := required } f c dates
      none).lookups.length, ∀ e ∈ f.entries, e.expiredAt (dates k) = e.expiredAt (dates 0) :=
    fun _ _ _ _ => rfl
  obtain ⟨houtcome, -⟩ := outcome_eq_verdict (o := { o with requireOnChange := required })
    timeout positive whole countable unexpired
  rw [← verdict_requireOnChange hne required]
  exact houtcome

/-- Only a resolution by highest priority keeps to the requirement that a provider support
subscriptions on change. Any other comes to the same with the requirement and without it. -/
theorem only_priority_requires_onChange (o : Options) (f : Fixture) (c : Config) :
    (o.strategy = .highestPriority → o.requireOnChange → ∀ dates interrupt e,
      (runThrough o f c dates interrupt).outcome = some (.ok e) → e.qos.supportsOnChange) ∧
    (o.strategy ≠ .highestPriority → .zero < o.effectiveTimeout c →
      .zero < o.effectiveInterval c → (o.effectiveInterval c).IsWhole →
      (o.effectiveTimeout c).nanos ⌈/⌉ (o.effectiveInterval c).nanos < attemptLimit →
      ∀ date, (run { o with requireOnChange := true } f c date none).outcome =
        (run { o with requireOnChange := false } f c date none).outcome) := by
  constructor
  · intro hstrategy required dates interrupt e hok
    exact supportsOnChange_of_outcome hstrategy required hok
  · intro hne timeout positive whole countable date
    have houtcome (required : Bool) :
        (run { o with requireOnChange := required } f c date none).outcome =
          some (verdict o f c date) :=
      outcome_requireOnChange hne timeout positive whole countable required
    rw [houtcome true, houtcome false]

/-- Options that ask for the provider last seen, and require it to support subscriptions on
change. -/
def latestOnChange : Options where
  fixture := "radios.yaml"
  domains := ["vehicle"]
  interface := "radio"
  version := { major := 1, minor := 2 }
  strategy := .lastSeen
  timeoutMillis := some 100
  retryMillis := some 100
  requireOnChange := true

/-- The radio does not support subscriptions on change, and is resolved to nevertheless. -/
theorem latestOnChange_without_support :
    latestOnChange.requireOnChange ∧ ¬Clocked.radio.qos.supportsOnChange ∧
      (run latestOnChange { entries := [Clocked.radio] } {} 2000 none).outcome =
        some (.ok Clocked.radio) := by
  have hverdict : verdict latestOnChange { entries := [Clocked.radio] } {} 2000 =
      .ok Clocked.radio := by rfl
  have countable : (latestOnChange.effectiveTimeout {}).nanos ⌈/⌉
      (latestOnChange.effectiveInterval {}).nanos < attemptLimit := by decide +kernel
  refine ⟨rfl, by decide, ?_⟩
  rw [← hverdict]
  exact outcome_requireOnChange (o := latestOnChange) (by decide) (by decide) (by decide)
    (Duration.isWhole_ofMillis 100) countable true

end OnChange

end Arbiter.Resolve
