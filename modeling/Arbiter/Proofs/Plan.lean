import Arbiter.Proofs.Arbitration.Steady

/-!
What a request is held to from the plan that is made of it to the entry that is delivered: the plan
is refused for a fault of the request only, and no run of it asks for anything else than what was
requested or delivers an entry that was not, whatever the discovery service replies.
-/

namespace Arbiter

open Arbitration Discovery

namespace Request

/-- Whether a parameter is not given, or given with an empty text. -/
def Lacks (request : Request) (name : String) : Prop :=
  request.parameter? name = none ∨ request.parameter? name = some ""

/-- The requests of which no plan can be made, for want of a parameter or of domains. -/
def Unfit (domains : List String) (request : Request) : Prop :=
  request.strategy = .fixedParticipant ∧ request.Lacks participantParameter ∨
  request.strategy = .keyword ∧ request.Lacks keywordParameter ∨
  request.strategy ≠ .fixedParticipant ∧ domains = []

/-- The lookups that a request allows. How long one may take is not settled by the request. -/
structure Asks (domains : List String) (interface : String) (gbids : List String)
    (request : Request) (query : Query) : Prop where
  participant : request.strategy = .fixedParticipant →
    ∃ id, request.parameter? participantParameter = some id ∧
      query.target = .participant id interface
  provider : request.strategy ≠ .fixedParticipant → query.target = .provider domains interface
  gbids : query.gbids = gbids
  cacheMaxAge : query.qos.cacheMaxAge = request.cacheMaxAge.clampedMillis
  scope : query.qos.scope = request.scope
  mustSupportOnChange : query.qos.mustSupportOnChange = request.mustSupportOnChange

/-- The entries that a request allows to be chosen among those of a compatible version. -/
structure Accepts (request : Request) (e : Entry) : Prop where
  participant : request.strategy = .fixedParticipant →
    request.parameter? participantParameter = some e.participant
  keyword : request.strategy = .keyword → ∃ p ∈ e.qos.customParameters,
    p.name = keywordParameter ∧ request.parameter? keywordParameter = some p.value
  onChange : request.strategy = .highestPriority → request.mustSupportOnChange →
    e.qos.supportsOnChange

end Request

namespace Plan

variable {domains : List String} {interface : String} {required : Version} {request : Request}
  {gbids : List String}

theorem requiredParameter_eq_ok {name text : String}
    (h : requiredParameter request name = .ok text) :
    request.parameter? name = some text ∧ ¬request.Lacks name := by
  unfold requiredParameter at h
  cases hgiven : request.parameter? name with
  | none => simp [hgiven] at h
  | some value =>
    by_cases hempty : value.isEmpty
    case pos => simp [hgiven, hempty] at h
    case neg =>
      obtain rfl : value = text := by simpa [hgiven, hempty] using h
      refine ⟨rfl, ?_⟩
      rintro (hnone | hblank)
      · simp [hgiven] at hnone
      · obtain rfl : value = "" := Option.some.inj (hgiven.symm.trans hblank)
        exact hempty rfl

theorem requiredParameter_eq_error {name : String} {failure : Failure}
    (h : requiredParameter request name = .error failure) :
    (∃ text, failure = .invalidConfiguration text) ∧ request.Lacks name := by
  unfold requiredParameter at h
  cases hgiven : request.parameter? name with
  | none =>
    obtain rfl : _ = failure := by simpa [hgiven] using h
    exact ⟨⟨_, rfl⟩, Or.inl hgiven⟩
  | some value =>
    by_cases hempty : value.isEmpty
    case pos =>
      obtain rfl : _ = failure := by simpa [hgiven, hempty] using h
      exact ⟨⟨_, rfl⟩, Or.inr (hgiven.trans (by simpa using hempty))⟩
    case neg => simp [hgiven, hempty] at h

theorem providerTarget_cases (domains : List String) (interface : String) :
    domains = [] ∧ (∃ text,
      providerTarget domains interface = .error (.invalidConfiguration text)) ∨
    domains ≠ [] ∧ providerTarget domains interface = .ok (.provider domains interface) := by
  unfold providerTarget
  cases domains with
  | nil => exact Or.inl ⟨rfl, _, rfl⟩
  | cons domain rest => exact Or.inr ⟨List.cons_ne_nil domain rest, rfl⟩

/-- How a plan is made, or is not, of a request. -/
inductive Made (domains : List String) (interface : String) (required : Version)
    (request : Request) (gbids : List String) : Except Failure Plan → Prop where
  | refused (text : String) (unfit : request.Unfit domains) :
    Made domains interface required request gbids (.error (.invalidConfiguration text))
  | fixedParticipant (id : String) (hs : request.strategy = .fixedParticipant)
      (given : request.parameter? participantParameter = some id)
      (fit : ¬request.Unfit domains) :
    Made domains interface required request gbids
      (.ok ⟨.participant id interface, required, .fixedParticipant id, request, gbids⟩)
  | keyword (text : String) (hs : request.strategy = .keyword)
      (given : request.parameter? keywordParameter = some text) (fit : ¬request.Unfit domains) :
    Made domains interface required request gbids
      (.ok ⟨.provider domains interface, required, .keyword text, request, gbids⟩)
  | highestPriority (hs : request.strategy = .highestPriority) (fit : ¬request.Unfit domains) :
    Made domains interface required request gbids
      (.ok ⟨.provider domains interface, required,
        .highestPriority request.mustSupportOnChange, request, gbids⟩)
  | lastSeen (hs : request.strategy = .lastSeen) (fit : ¬request.Unfit domains) :
    Made domains interface required request gbids
      (.ok ⟨.provider domains interface, required, .lastSeen, request, gbids⟩)

theorem make_made (domains : List String) (interface : String) (required : Version)
    (request : Request) (gbids : List String) :
    Made domains interface required request gbids
      (make domains interface required request gbids) := by
  unfold make aim
  cases hs : request.strategy with
  | fixedParticipant =>
    cases hgiven : requiredParameter request participantParameter with
    | error failure =>
      obtain ⟨⟨text, rfl⟩, hlacks⟩ := requiredParameter_eq_error hgiven
      exact .refused text (Or.inl ⟨hs, hlacks⟩)
    | ok id =>
      obtain ⟨hid, hlacks⟩ := requiredParameter_eq_ok hgiven
      exact .fixedParticipant id hs hid (by simp [Request.Unfit, hs, hlacks])
  | keyword =>
    cases hgiven : requiredParameter request keywordParameter with
    | error failure =>
      obtain ⟨⟨text, rfl⟩, hlacks⟩ := requiredParameter_eq_error hgiven
      exact .refused text (Or.inr (Or.inl ⟨hs, hlacks⟩))
    | ok text =>
      obtain ⟨htext, hlacks⟩ := requiredParameter_eq_ok hgiven
      rcases providerTarget_cases domains interface with ⟨hnone, text, ht⟩ | ⟨hsome, ht⟩
      · rw [ht]
        exact .refused text (Or.inr (Or.inr ⟨by simp [hs], hnone⟩))
      · rw [ht]
        exact .keyword text hs htext (by simp [Request.Unfit, hs, hlacks, hsome])
  | highestPriority =>
    rcases providerTarget_cases domains interface with ⟨hnone, text, ht⟩ | ⟨hsome, ht⟩
    · rw [ht]
      exact .refused text (Or.inr (Or.inr ⟨by simp [hs], hnone⟩))
    · rw [ht]
      exact .highestPriority hs (by simp [Request.Unfit, hs, hsome])
  | lastSeen =>
    rcases providerTarget_cases domains interface with ⟨hnone, text, ht⟩ | ⟨hsome, ht⟩
    · rw [ht]
      exact .refused text (Or.inr (Or.inr ⟨by simp [hs], hnone⟩))
    · rw [ht]
      exact .lastSeen hs (by simp [Request.Unfit, hs, hsome])

theorem make_eq_error {failure : Failure}
    (h : make domains interface required request gbids = .error failure) :
    (∃ text, failure = .invalidConfiguration text) ∧ request.Unfit domains := by
  have hmade := make_made domains interface required request gbids
  rw [h] at hmade
  cases hmade with
  | refused text unfit => exact ⟨⟨text, rfl⟩, unfit⟩

section Made

variable {plan : Plan} (h : make domains interface required request gbids = .ok plan)
include h

theorem fit_of_make : ¬request.Unfit domains := by
  have hmade := make_made domains interface required request gbids
  rw [h] at hmade
  cases hmade with
  | fixedParticipant _ _ _ fit | keyword _ _ _ fit | highestPriority _ fit | lastSeen _ fit =>
    exact fit

theorem required_of_make : plan.required = required := by
  have hmade := make_made domains interface required request gbids
  rw [h] at hmade
  cases hmade <;> rfl

/-- The queries of the plan are those that the request allows. -/
theorem asks_of_make (remaining : Duration) :
    request.Asks domains interface gbids (queryOf plan remaining) := by
  have hmade := make_made domains interface required request gbids
  rw [h] at hmade
  cases hmade with
  | fixedParticipant id hs given =>
    exact ⟨fun _ => ⟨id, given, rfl⟩, fun hne => absurd hs hne, rfl, rfl, rfl, rfl⟩
  | keyword _ hs | highestPriority hs | lastSeen hs =>
    exact ⟨fun he => by simp [hs] at he, fun _ => rfl, rfl, rfl, rfl, rfl⟩

/-- The policy of the plan chooses what the request accepts, whatever it is given. -/
theorem accepts_of_make {es : List Entry} {e : Entry} (hselect : plan.policy.select es = some e) :
    request.Accepts e := by
  have hmade := make_made domains interface required request gbids
  rw [h] at hmade
  cases hmade with
  | fixedParticipant id hs given =>
    have hid : e.participant = id := by simpa using List.find?_some hselect
    exact ⟨fun _ => hid ▸ given, fun he => by simp [hs] at he, fun he => by simp [hs] at he⟩
  | keyword text hs given =>
    obtain ⟨p, hp, hname, hvalue⟩ : ∃ p ∈ e.qos.customParameters,
        p.name = keywordParameter ∧ p.value = text := by
      simpa [Policy.hasKeyword] using List.find?_some hselect
    exact ⟨fun he => by simp [hs] at he, fun _ => ⟨p, hp, hname, hvalue ▸ given⟩,
      fun he => by simp [hs] at he⟩
  | highestPriority hs =>
    refine ⟨fun he => by simp [hs] at he, fun he => by simp [hs] at he, fun _ honChange => ?_⟩
    rw [honChange] at hselect
    exact Policy.supportsOnChange_of_select hselect
  | lastSeen hs =>
    exact ⟨fun he => by simp [hs] at he, fun he => by simp [hs] at he,
      fun he => by simp [hs] at he⟩

end Made

end Plan

namespace Arbitration

/-- The reply that the task has and has not judged yet. -/
def Task.inHand? : Task → Option Reply
  | .polling _ (.replied reply) | .checking _ reply | .judging _ reply => some reply
  | _ => none

namespace World

variable {plan : Plan} {w : World}

/-- The task gets no reply but from the discovery service. -/
theorem inHand?_step {a : Action} {reply : Reply} (h : (w.step plan a).task.inHand? = some reply) :
    w.task.inHand? = some reply ∨ a = .reply reply := by
  have hm := step_move plan w a
  generalize w.step plan a = after at hm h
  cases hm with
  | start | stop | noCall | unasked | advance => exact Or.inl h
  | replyAtOnce | reply =>
    obtain rfl : _ = reply := Option.some.inj h
    exact Or.inr rfl
  | call hc split hs move =>
    cases move with
    | launch => cases h
    | accept | refuse | refused | signal | late | cancel | stopped => exact Or.inl h
  | task move =>
    cases move with
    | wait => exact Or.inl h
    | take ht | check ht => exact Or.inl (by rw [ht]; exact h)
    | begin | overflow | leave | expire | ask | pend | select | abort | retry | abandon | wake
    | late | close | deliver => cases h

/-- Whatever the task acts on was replied to it. -/
theorem reply_mem_of_judged (plan : Plan) (actions : List Action) :
    (∀ reply ∈ (World.run plan {} actions).task.inHand?, .reply reply ∈ actions) ∧
      ∀ reply ∈ judged plan {} actions, .reply reply ∈ actions := by
  induction actions using List.reverseRecOn with
  | nil =>
    constructor
    · intro reply h
      cases h
    · intro reply h
      cases h
  | append_singleton actions a ih =>
    obtain ⟨hhand, hjudged⟩ := ih
    constructor
    · intro reply h
      rw [run_concat] at h
      rcases inHand?_step h with h | rfl
      · exact List.mem_append_left _ (hhand reply h)
      · exact List.mem_append_right _ List.mem_cons_self
    · intro reply h
      rw [judged, gather_concat] at h
      rcases List.mem_append.mp h with h | h
      · exact List.mem_append_left _ (hjudged reply h)
      · -- What is judged in a step was in hand before it.
        refine List.mem_append_left _ (hhand reply ?_)
        cases a with
        | task =>
          cases ht : (World.run plan {} actions).task with
          | judging attempt inHand =>
            obtain rfl : reply = inHand := by simpa [judgedIn, ht] using h
            rfl
          | _ => simp [judgedIn, ht] at h
        | _ => cases h

/-- Where nobody calls for a start, there is nothing but stops, and no task. -/
theorem absent_of_unstarted (plan : Plan) {actions : List Action}
    (unstarted : ∀ runtime, .start runtime ∉ actions) :
    (World.run plan {} actions).task = .absent ∧
      ∀ c ∈ (World.run plan {} actions).calls, c.isStop := by
  induction actions using List.reverseRecOn with
  | nil => exact ⟨rfl, fun c hc => by cases hc⟩
  | append_singleton actions a ih =>
    obtain ⟨habsent, hstops⟩ := ih fun runtime h => unstarted runtime (List.mem_append_left _ h)
    have ha : ∀ runtime, a ≠ .start runtime := by
      rintro runtime rfl
      exact unstarted runtime (List.mem_append_right _ List.mem_cons_self)
    rw [run_concat]
    generalize World.run plan {} actions = w at habsent hstops
    have hm := step_move plan w a
    generalize w.step plan a = after at hm
    cases hm with
    | start runtime => exact absurd rfl (ha runtime)
    | stop runtime =>
      refine ⟨habsent, fun c hc => ?_⟩
      rcases List.mem_append.mp hc with hc | hc
      · exact hstops c hc
      · rw [List.mem_singleton.mp hc]
        rfl
    | noCall | unasked | advance => exact ⟨habsent, hstops⟩
    | replyAtOnce _ ht | reply _ ht => simp [habsent] at ht
    | task move =>
      rw [move.eq_self (by simp [taskDue, habsent])]
      exact ⟨habsent, hstops⟩
    | @call i c earlier later after left hc split hs move =>
      have hstop := hstops c (List.mem_of_getElem? hc)
      have hcalls (hleft : ∀ rest ∈ left, rest.isStop) :
          ∀ c ∈ earlier ++ left.toList ++ later, c.isStop := by
        intro other hother
        rw [split] at hstops
        simp only [List.mem_append, Option.mem_toList, List.mem_cons] at hother hstops
        rcases hother with (hother | hother) | hother
        · exact hstops other (Or.inl hother)
        · exact hleft other hother
        · exact hstops other (Or.inr (Or.inr hother))
      cases move with
      | accept | refuse | refused | launch => cases hstop
      | signal | late | cancel | stopped => exact ⟨habsent, hcalls (by simp [Call.isStop])⟩

end World

end Arbitration

/-- A plan can be made of every request that is fit for one. In every run, what it asks for and what
it delivers keep to the request, whatever else was replied. -/
theorem Plan.make_keeps_to_request (domains : List String) (interface : String)
    (required : Version) (request : Request) (gbids : List String) :
    ((∃ failure, make domains interface required request gbids = .error failure) ↔
      request.Unfit domains) ∧
    (∀ failure, make domains interface required request gbids = .error failure →
      ∃ text, failure = .invalidConfiguration text) ∧
    ∀ plan, make domains interface required request gbids = .ok plan → ∀ actions,
      -- Until somebody starts it, a plan asks for nothing.
      ((∀ runtime, .start runtime ∉ actions) → (World.run plan {} actions).lookups = []) ∧
      (∀ lookup ∈ (World.run plan {} actions).lookups,
        request.Asks domains interface gbids lookup.1) ∧
      ∀ id e, (id, .ok e) ∈ (World.run plan {} actions).told →
        (∃ es, .reply (.ok es) ∈ actions ∧ e ∈ es) ∧ e.version.serves required ∧
          request.Accepts e := by
  refine ⟨⟨?_, ?_⟩, fun failure h => (make_eq_error h).1, fun plan h actions => ⟨?_, ?_, ?_⟩⟩
  · rintro ⟨failure, h⟩
    exact (make_eq_error h).2
  · intro unfit
    cases h : make domains interface required request gbids with
    | error failure => exact ⟨failure, rfl⟩
    | ok plan => exact absurd unfit (fit_of_make h)
  · intro unstarted
    exact ((World.Keeps.run plan actions).fresh (World.absent_of_unstarted plan unstarted).1).2
  · intro lookup hlookup
    obtain ⟨remaining, hquery⟩ := World.lookup_eq_queryOf plan actions lookup hlookup
    rw [hquery]
    exact asks_of_make h remaining
  · intro id e htold
    obtain ⟨es, hjudged, hselect⟩ := World.selected_of_told plan actions htold
    obtain ⟨hmem, hserves⟩ := Policy.mem_of_select_compatible hselect
    refine ⟨⟨es, (World.reply_mem_of_judged plan actions).2 _ hjudged, hmem⟩, ?_, ?_⟩
    · rw [← required_of_make h]
      exact hserves
    · exact accepts_of_make h hselect

end Arbiter
