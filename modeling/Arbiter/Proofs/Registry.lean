import Arbiter.Discovery.Registry
import Mathlib.Data.List.Find
import Mathlib.Tactic.SplitIfs

/-! What a registry finds, said entry by entry and backend by backend. -/

namespace Arbiter

/-- Whether a scope admits an entry, given whether an entry that is local was found with it. -/
def DiscoveryScope.admits (scope : DiscoveryScope) (anyLocal : Bool) (e : Entry) : Bool :=
  match scope with
  | .localOnly => e.isLocal
  | .globalOnly => !e.isLocal
  | .localThenGlobal => e.isLocal || !anyLocal
  | .localAndGlobal => true

namespace Discovery.Registry

variable {r : Registry} {a b : Int64}

theorem inScope_eq_filter (scope : DiscoveryScope) (es : List Entry) :
    inScope scope es = es.filter (scope.admits (es.any (·.isLocal))) := by
  cases scope with
  | localOnly | globalOnly => rfl
  | localAndGlobal => exact (List.filter_eq_self.mpr fun _ _ => rfl).symm
  | localThenGlobal =>
    have hadmits : DiscoveryScope.localThenGlobal.admits (es.any (·.isLocal)) =
        fun e => e.isLocal || !es.any (·.isLocal) := rfl
    rw [hadmits, inScope]
    by_cases hlocal : es.any (·.isLocal)
    case pos => simp [hlocal]
    case neg =>
      rw [if_neg hlocal]
      exact (List.filter_eq_self.mpr fun e _ => by simp [hlocal]).symm

/-- A single entry is found if the scope admits it by itself. -/
theorem inScope_toList (scope : DiscoveryScope) (found : Option Entry) :
    inScope scope found.toList = (found.filter fun e => scope.admits e.isLocal e).toList := by
  cases found with
  | none => simp [inScope_eq_filter]
  | some e =>
    rw [inScope_eq_filter]
    by_cases h : scope.admits e.isLocal e <;> simp [h, Option.filter]

/-- Whether a backend cannot be asked. -/
def refuses (known : Option (List String)) (gbid : String) : Bool :=
  Text.isBlankText gbid || known.any fun names => !names.contains gbid

/-- The code with which it is refused. -/
def refusal (gbid : String) : ErrorCode :=
  if Text.isBlankText gbid then .invalidGbid else .unknownGbid

theorem isRetryable_refusal (gbid : String) : (refusal gbid).isRetryable = false := by
  unfold refusal
  split_ifs <;> rfl

/-- The first backend that cannot be asked is at fault. -/
theorem gbidsFault_eq_find? (known : Option (List String)) (gbids : List String) :
    gbidsFault known gbids = (gbids.find? (refuses known)).map refusal := by
  induction gbids with
  | nil => rfl
  | cons gbid rest ih =>
    have hfault : gbidFault known gbid =
        if refuses known gbid then some (refusal gbid) else none := by
      unfold gbidFault refuses refusal
      by_cases hblank : Text.isBlankText gbid
      case pos => simp [hblank]
      case neg => cases known <;> simp [hblank]
    rw [gbidsFault, List.findSome?_cons, hfault, List.find?_cons]
    by_cases hrefuses : refuses known gbid
    case pos => simp [hrefuses]
    case neg => simpa [hrefuses, gbidsFault] using ih

section Answer

variable {q : Query} {domains : List String} {id interface : String}

theorem answer_of_fault {code : ErrorCode} (hfault : gbidsFault r.knownGbids q.gbids = some code) :
    r.answer a q = .error (.application code) := by
  unfold answer lookup lookupParticipant
  rw [hfault]
  cases q.target <;> rfl

theorem answer_provider (hfault : gbidsFault r.knownGbids q.gbids = none)
    (ht : q.target = .provider domains interface) :
    r.answer a q = .ok ((r.providers domains interface a).filter
      (q.qos.scope.admits ((r.providers domains interface a).any (·.isLocal)))) := by
  rw [answer, ht]
  dsimp only
  rw [lookup, hfault, inScope_eq_filter]

theorem answer_participant (hfault : gbidsFault r.knownGbids q.gbids = none)
    (ht : q.target = .participant id interface) :
    r.answer a q =
      match (r.participant? id interface a).filter fun e => q.qos.scope.admits e.isLocal e with
      | some e => .ok [e]
      | none => .error (.application .noEntryForParticipant) := by
  rw [answer, ht]
  dsimp only
  rw [lookupParticipant, hfault, inScope_toList]
  cases (r.participant? id interface a).filter fun e => q.qos.scope.admits e.isLocal e <;> rfl

end Answer

/-- A registry answers alike at two dates between which no entry expires. -/
theorem answer_congr (unexpired : ∀ e ∈ r.entries, e.expiredAt a = e.expiredAt b) (q : Query) :
    r.answer a q = r.answer b q := by
  have hproviders (domains : List String) (interface : String) :
      r.providers domains interface a = r.providers domains interface b :=
    List.filter_congr fun e he => by rw [unexpired e he]
  have hparticipant (id interface : String) :
      r.participant? id interface a = r.participant? id interface b :=
    List.find?_congr fun e he => by rw [unexpired e he]
  unfold answer lookup lookupParticipant
  simp only [hproviders, hparticipant]

end Discovery.Registry

end Arbiter
