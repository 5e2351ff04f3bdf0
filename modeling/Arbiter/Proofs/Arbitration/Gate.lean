import Arbiter.Proofs.Arbitration.ErrorTexts
import Arbiter.Proofs.Arbitration.Steady
import Arbiter.Proofs.Scopes

/-!
The names of the backends decide whether a registry answers at all, and nothing of what it answers.
A lookup that they keep from being answered is the last one of its arbitration.
-/

namespace Arbiter

open Discovery

namespace Discovery.Registry

/-- Why a backend cannot be asked: its name is blank, listed or not, or there is a list and the name
is not on it as it stands. -/
inductive Refused (known : Option (List String)) (gbid : String) : ErrorCode → Prop where
  | blank (h : ∀ c ∈ gbid.toList, Text.isBlank c) : Refused known gbid .invalidGbid
  | unknown {names : List String} (hvisible : ∃ c ∈ gbid.toList, Text.isBlank c = false)
      (hknown : known = some names) (h : gbid ∉ names) : Refused known gbid .unknownGbid

/-- The code belongs to the first of the backends that cannot be asked. -/
def FirstRefused (known : Option (List String)) (gbids : List String) (code : ErrorCode) : Prop :=
  ∃ earlier gbid later, gbids = earlier ++ gbid :: later ∧
    (∀ before ∈ earlier, ∀ other, ¬ Refused known before other) ∧ Refused known gbid code

/-- The codes of the faults of backend names. -/
def IsGbidCode (code : ErrorCode) : Prop :=
  code = .invalidGbid ∨ code = .unknownGbid

theorem IsGbidCode.isRetryable {code : ErrorCode} (h : IsGbidCode code) :
    code.isRetryable = false := by
  rcases h with rfl | rfl <;> rfl

theorem IsGbidCode.ofText_toString {code : ErrorCode} (h : IsGbidCode code) :
    ErrorCode.ofText code.toString = code := by
  rcases h with rfl | rfl <;> rfl

variable {known : Option (List String)} {gbid : String} {gbids : List String} {code : ErrorCode}
  {r : Registry} {now : Int64}

theorem refused_iff :
    Refused known gbid code ↔ refuses known gbid ∧ refusal gbid = code := by
  have hblank : Text.isBlankText gbid ↔ ∀ c ∈ gbid.toList, Text.isBlank c := by
    rw [Text.isBlankText, List.all_eq_true]
  have hvisible : Text.isBlankText gbid = false ↔ ∃ c ∈ gbid.toList, Text.isBlank c = false := by
    rw [Text.isBlankText, List.all_eq_false]
    simp
  constructor
  · intro h
    cases h with
    | blank h => simp [refuses, refusal, hblank.mpr h]
    | unknown visible hknown h => simp [refuses, refusal, hvisible.mpr visible, hknown, h]
  · rintro ⟨hrefuses, rfl⟩
    unfold refuses at hrefuses
    unfold refusal
    by_cases h : Text.isBlankText gbid
    case pos =>
      rw [if_pos h]
      exact .blank (hblank.mp h)
    case neg =>
      rw [if_neg h]
      rw [Bool.not_eq_true] at h
      rw [h, Bool.false_or, Option.any_eq_true] at hrefuses
      obtain ⟨names, hknown, hlisted⟩ := hrefuses
      exact .unknown (hvisible.mp h) hknown (by simpa using hlisted)

theorem Refused.isGbidCode (h : Refused known gbid code) : IsGbidCode code := by
  cases h with
  | blank => exact .inl rfl
  | unknown => exact .inr rfl

theorem exists_refused_iff : (∃ code, Refused known gbid code) ↔
    (∀ c ∈ gbid.toList, Text.isBlank c) ∨ ∃ names, known = some names ∧ gbid ∉ names := by
  constructor
  · rintro ⟨_, h⟩
    cases h with
    | blank h => exact .inl h
    | unknown _ hknown h => exact .inr ⟨_, hknown, h⟩
  · intro h
    by_cases blank : ∀ c ∈ gbid.toList, Text.isBlank c
    case pos => exact ⟨_, .blank blank⟩
    case neg =>
      obtain ⟨names, hknown, hlisted⟩ := h.resolve_left blank
      exact ⟨_, .unknown (by simpa using blank) hknown hlisted⟩

theorem gbidsFault_eq_some_iff :
    gbidsFault known gbids = some code ↔ FirstRefused known gbids code := by
  rw [gbidsFault_eq_find?, Option.map_eq_some_iff]
  simp only [List.find?_eq_some_iff_append, FirstRefused, refused_iff]
  constructor
  · rintro ⟨gbid, ⟨hrefuses, earlier, later, rfl, passed⟩, hcode⟩
    exact ⟨earlier, gbid, later, rfl, by simpa using passed, hrefuses, hcode⟩
  · rintro ⟨earlier, gbid, later, rfl, passed, hrefuses, hcode⟩
    exact ⟨gbid, ⟨hrefuses, earlier, later, rfl, by simpa using passed⟩, hcode⟩

theorem gbidsFault_eq_none (h : ∀ code, ¬ FirstRefused known gbids code) :
    gbidsFault known gbids = none :=
  Option.eq_none_iff_forall_ne_some.mpr fun code hcode => h code (gbidsFault_eq_some_iff.mp hcode)

theorem FirstRefused.isGbidCode (h : FirstRefused known gbids code) : IsGbidCode code := by
  obtain ⟨_, _, _, -, -, refused⟩ := h
  exact refused.isGbidCode

theorem exists_firstRefused_iff : (∃ code, FirstRefused known gbids code) ↔
    ∃ gbid ∈ gbids, (∀ c ∈ gbid.toList, Text.isBlank c) ∨
      ∃ names, known = some names ∧ gbid ∉ names := by
  simp only [← exists_refused_iff, ← gbidsFault_eq_some_iff, gbidsFault_eq_find?, refused_iff]
  rw [← Option.isSome_iff_exists, Option.isSome_map, List.find?_isSome]
  simp

theorem lookup_eq_error_iff (domains : List String) (interface : String) (scope : DiscoveryScope) :
    r.lookup domains interface scope gbids now = .error (.application code) ↔
      FirstRefused r.knownGbids gbids code := by
  rw [← gbidsFault_eq_some_iff, lookup]
  cases gbidsFault r.knownGbids gbids <;> simp

theorem lookupParticipant_eq_gbid_error_iff (hcode : IsGbidCode code) (id interface : String)
    (scope : DiscoveryScope) :
    r.lookupParticipant id interface scope gbids now = .error (.application code) ↔
      FirstRefused r.knownGbids gbids code := by
  -- A lookup that is answered can still fail, but with a code of another kind.
  have hother : ErrorCode.noEntryForParticipant ≠ code := by
    rcases hcode with rfl | rfl <;> decide
  rw [← gbidsFault_eq_some_iff, lookupParticipant]
  cases gbidsFault r.knownGbids gbids with
  | some fault => simp
  | none =>
    dsimp only
    split
    · simp
    · simp [hother]

theorem answer_of_firstRefused {q : Query} (h : FirstRefused r.knownGbids q.gbids code) :
    r.answer now q = .error (.application code) :=
  answer_of_fault (gbidsFault_eq_some_iff.mpr h)

/-- The answers to two lookups that both are let through. -/
theorem lookup_congr_gbids {others : List String} (h : gbidsFault r.knownGbids gbids = none)
    (h' : gbidsFault known others = none) (domains : List String) (interface : String)
    (scope : DiscoveryScope) :
    { r with knownGbids := known }.lookup domains interface scope others now =
      r.lookup domains interface scope gbids now := by
  rw [lookup_eq_ok h, lookup_eq_ok h']
  rfl

theorem lookupParticipant_congr_gbids {others : List String}
    (h : gbidsFault r.knownGbids gbids = none) (h' : gbidsFault known others = none)
    (id interface : String) (scope : DiscoveryScope) :
    { r with knownGbids := known }.lookupParticipant id interface scope others now =
      r.lookupParticipant id interface scope gbids now := by
  rw [lookupParticipant, lookupParticipant, h, h']
  rfl

end Discovery.Registry

namespace Arbitration

namespace Clocked

open World Discovery.Registry

variable {s : Clocked} {rs : List Reply} {acc : List CallId}

/-- No lookup follows a reply that is decisive, whether the arbitration is stopped or not. -/
def UndecidedBeforeLast (s : Clocked) : Prop :=
  ∀ x ∈ s.exchanges.dropLast, decision? s.plan x.reply = none

theorem UndecidedBeforeLast.step (h : s.UndecidedBeforeLast) (hf : Follows rs s)
    (hd : Delivers s.plan acc s.world) (a : Action) : (s.step a).UndecidedBeforeLast := by
  rw [UndecidedBeforeLast, step_plan]
  cases step_lookupMove hd a with
  | keep _ _ hl | count _ _ _ hl | drop _ _ _ _ _ hl =>
    rw [exchanges_step_of_eq hl]
    exact h
  | ask ht _ _ _ _ hl =>
    rw [exchanges_step, hl, List.mapIdx_concat, ← exchanges, List.dropLast_concat]
    -- An attempt is due only when the task has gone through all the replies before it.
    have hstage := hf.stage
    rw [ht] at hstage
    generalize s.exchanges = xs at hstage ⊢
    cases hstage with
    | due answered => exact answered.undecided

theorem UndecidedBeforeLast.run {plan : Plan} {service : Service} {actions : List Action}
    (timely : Timely { plan, service } actions) :
    (Clocked.run { plan, service } actions).UndecidedBeforeLast := by
  induction actions using List.reverseRecOn with
  | nil => exact fun x hx => by cases hx
  | append_singleton actions a ih =>
    rw [timely_concat] at timely
    have hd := Delivers.run plan actions
    rw [run_concat]
    exact (ih timely.1).step (Follows.run timely.1) (by simpa using hd) a

/-- If the first reply is decisive, the first lookup is the only one. -/
theorem length_lookups_of_decided {plan : Plan} {service : Service} {actions : List Action}
    (timely : Timely { plan, service } actions) {query : Query} {asked : Instant}
    (hlookup : (World.run plan {} actions).lookups[0]? = some (query, asked))
    (decided : decision? plan (service 0 query).reply ≠ none) :
    (World.run plan {} actions).lookups.length = 1 := by
  have h := UndecidedBeforeLast.run timely
  have hworld : (Clocked.run { plan, service } actions).world = World.run plan {} actions :=
    run_world _ actions
  rw [UndecidedBeforeLast, exchanges, run_plan, run_service, hworld] at h
  generalize (World.run plan {} actions).lookups = lookups at h hlookup ⊢
  rcases lookups with _ | ⟨first, _ | ⟨second, rest⟩⟩
  · cases hlookup
  · rfl
  · obtain rfl := Option.some.inj hlookup
    rw [List.mapIdx_cons, List.mapIdx_cons, List.dropLast_cons_cons] at h
    exact absurd (h _ List.mem_cons_self) decided

section Refused

variable {plan : Plan} {service : Service} {r : Registry} {now : Int64} {code : ErrorCode}
  (first : ∀ query, (service 0 query).reply = r.answer now query)
  (refused : FirstRefused r.knownGbids plan.gbids code)
include first refused

/-- The registry fails the first lookup of an arbitration at a backend that cannot be asked. -/
theorem first_reply_of_refused {actions : List Action} {query : Query} {asked : Instant}
    (hlookup : (World.run plan {} actions).lookups[0]? = some (query, asked)) :
    (service 0 query).reply = .error (.application code) := by
  obtain ⟨remaining, rfl⟩ := lookup_eq_queryOf plan actions _ (List.mem_of_getElem? hlookup)
  exact (first _).trans (answer_of_firstRefused refused)

theorem length_lookups_of_refused {actions : List Action}
    (timely : Timely { plan, service } actions) {reply : Reply} {time : Instant}
    (replied : RepliedAt plan service (World.run plan {} actions) 0 reply time) :
    (World.run plan {} actions).lookups.length = 1 := by
  obtain ⟨query, asked, _, hlookup, -⟩ := replied
  refine length_lookups_of_decided timely hlookup ?_
  rw [first_reply_of_refused first refused hlookup, decision?_application,
    refused.isGbidCode.isRetryable]
  exact Option.some_ne_none _

theorem aborted_of_refused {actions : List Action} (timely : Timely { plan, service } actions)
    (unstopped : ∀ runtime, .stop runtime ∉ actions) {reply : Reply} {time : Instant}
    (replied : RepliedAt plan service (World.run plan {} actions) 0 reply time) :
    AbortedAt plan (accepted plan {} actions) (World.run plan {} actions) 0 time code.toString := by
  obtain ⟨query, asked, delay, hlookup, hdelay, -, arrival⟩ := replied
  have hreply := first_reply_of_refused first refused hlookup
  refine (run_decided_by_text timely unstopped
    ⟨query, asked, delay, hlookup, hdelay, ?_, arrival⟩).2 ?_
  · rw [hreply, refused.isGbidCode.ofText_toString]
  · rw [← ErrorCode.isRetryable_ofText, refused.isGbidCode.ofText_toString,
      refused.isGbidCode.isRetryable]
    exact Bool.false_ne_true

end Refused

/-- A lookup fails with the code of the first backend name that is refused, and nothing else in the
registry or the query decides that. An arbitration with such a reply ends with it. -/
theorem gbids_gate_lookups (r : Registry) (gbids : List String) (now : Int64) :
    (∀ code, IsGbidCode code →
      (∀ domains interface scope,
        r.lookup domains interface scope gbids now = .error (.application code) ↔
          FirstRefused r.knownGbids gbids code) ∧
      ∀ id interface scope,
        r.lookupParticipant id interface scope gbids now = .error (.application code) ↔
          FirstRefused r.knownGbids gbids code) ∧
    -- A name is refused if it is blank, or if it is none of the names that are known.
    ((∃ code, IsGbidCode code ∧ FirstRefused r.knownGbids gbids code) ↔
      ∃ gbid ∈ gbids, (∀ c ∈ gbid.toList, Text.isBlank c) ∨
        ∃ names, r.knownGbids = some names ∧ gbid ∉ names) ∧
    -- Names that are let through give the same answer, be it by different lists of known ones.
    (∀ known others, (∀ code, ¬ FirstRefused r.knownGbids gbids code) →
      (∀ code, ¬ FirstRefused known others code) →
      let restricted := { r with knownGbids := known }
      (∀ domains interface scope,
        restricted.lookup domains interface scope others now =
          r.lookup domains interface scope gbids now) ∧
      ∀ id interface scope,
        restricted.lookupParticipant id interface scope others now =
          r.lookupParticipant id interface scope gbids now) ∧
    -- After such a reply no other lookup is made, and unless it is stopped, the arbitration fails.
    ∀ plan service code, (∀ query, (service 0 query).reply = r.answer now query) →
      FirstRefused r.knownGbids plan.gbids code →
      (∀ actions, Timely { plan, service } actions →
        let w := World.run plan {} actions
        ∀ reply time, RepliedAt plan service w 0 reply time →
          w.lookups.length = 1 ∧ ((∀ runtime, .stop runtime ∉ actions) →
            AbortedAt plan (accepted plan {} actions) w 0 time code.toString)) ∧
      ∀ start, (∀ k query,
          (service k query).stops = false ∧ (service k query).stopsWhenShown = false) →
        let result := (Session.fresh plan service start).arbitrate none
        ∀ reply time, RepliedAt plan service result.1.world 0 reply time →
          AbortedAt plan [0] result.1.world 0 time code.toString ∧
            result.2 = some (.error (.lookupFailed (abortMessage plan code.toString))) := by
  refine ⟨fun code hcode => ⟨?_, ?_⟩, ?_, fun known others passed passed' => ?_,
    fun plan service code first refused => ⟨?_, ?_⟩⟩
  · exact lookup_eq_error_iff
  · exact lookupParticipant_eq_gbid_error_iff hcode
  · rw [← exists_firstRefused_iff]
    exact exists_congr fun code => and_iff_right_of_imp FirstRefused.isGbidCode
  · have hgbids := gbidsFault_eq_none passed
    have hothers := gbidsFault_eq_none passed'
    exact ⟨lookup_congr_gbids hgbids hothers, lookupParticipant_congr_gbids hgbids hothers⟩
  · intro actions timely w reply time replied
    exact ⟨length_lookups_of_refused first refused timely replied, fun unstopped =>
      aborted_of_refused first refused timely unstopped replied⟩
  · intro start calm
    have hplayed := Session.arbitrate_over plan start calm
    generalize (Session.fresh plan service start).arbitrate none = result at hplayed ⊢
    obtain ⟨actions, timely, unstopped, hworld, -, hacc, hover, houtcome⟩ := hplayed
    intro _ reply time replied
    rw [hworld] at replied
    have aborted := aborted_of_refused first refused timely unstopped replied
    rw [hacc, ← hworld] at aborted
    rw [← hworld] at hover
    obtain ⟨id, hid, told⟩ := aborted.told hover
    obtain rfl := List.singleton_inj.mp hid
    exact ⟨aborted, houtcome _ _ told⟩

/-- A registry that lists a blank name as one of those it answers for. -/
def blankKnown : Registry where
  entries := [farRadio]
  knownGbids := some ["cloud", " "]

/-- The two attempts at three backends, the second of them blank and the third not known. -/
def atBlank : Plan :=
  { twoAttempts with gbids := ["cloud", " ", "harbour"] }

theorem firstRefused_atBlank :
    FirstRefused blankKnown.knownGbids atBlank.gbids .invalidGbid :=
  gbidsFault_eq_some_iff.mp (by decide)

/-- The blank name is at fault though it is listed, the arbitration ends with its first reply, and
without that name the entry is found, with or without a list of known ones. -/
theorem atBlank_invalid :
    blankKnown.lookup ["vehicle"] "radio" .localAndGlobal atBlank.gbids 5 =
      .error (.application .invalidGbid) ∧
    { blankKnown with knownGbids := none }.lookupParticipant "radio-1" "radio" .globalOnly
      ["harbour"] 5 = .ok farRadio ∧
    ((Session.fresh atBlank (.ofDatedRegistry blankKnown fun _ => 5) 0).arbitrate none).2 =
      some (.error (.lookupFailed (abortMessage atBlank "INVALID_GBID"))) := by
  obtain ⟨hcode, -, -, hruns⟩ := gbids_gate_lookups blankKnown atBlank.gbids 5
  obtain ⟨-, -, hpassed, -⟩ := gbids_gate_lookups blankKnown ["cloud"] 5
  obtain ⟨-, hplayed⟩ := hruns atBlank (.ofDatedRegistry blankKnown fun _ => 5) .invalidGbid
    (fun _ => rfl) firstRefused_atBlank
  obtain ⟨-, hparticipant⟩ := hpassed none ["harbour"]
    (fun code h => by cases (gbidsFault_eq_some_iff.mpr h : none = some code))
    (fun code h => by cases (gbidsFault_eq_some_iff.mpr h : none = some code))
  refine ⟨((hcode .invalidGbid (.inl rfl)).1 _ _ _).mpr firstRefused_atBlank,
    (hparticipant _ _ _).trans (by decide), ?_⟩
  refine (hplayed 0 (fun _ _ => ⟨rfl, rfl⟩) (.error (.application .invalidGbid)) .zero ?_).2
  exact ⟨queryOf atBlank (.ofMillis 150), .zero, .zero, by decide +kernel, rfl, rfl, rfl,
    by decide +kernel⟩

end Clocked

end Arbitration

end Arbiter
