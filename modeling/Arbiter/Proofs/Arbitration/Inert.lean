import Arbiter.Proofs.Arbitration.Guests

/-!
Starts that are refused, and stops that come too late, leave no trace: without them everything else is
observed as it is with them.
-/

namespace Arbiter.Arbitration

open Discovery

def Action.isOfCaller : Action → Bool
  | start _ | stop _ | call _ => true
  | _ => false

/-- The start that is accepted in a step, by what is left of the call. -/
def acceptedStart : Option Call → List CallId
  | some (.accepted id) => [id]
  | _ => []

namespace World

variable {plan : Plan} {v w : World} {acc acc' : List CallId} {hosts : List CallId}

theorem step_call_at {cs cs' : List Call} {c : Call} (hcalls : w.calls = cs ++ c :: cs') :
    w.step plan (.call cs.length) =
      { (w.callStep plan c).1 with calls := cs ++ (w.callStep plan c).2.toList ++ cs' } := by
  have hget : w.calls[cs.length]? = some c := by simp [hcalls]
  rw [step_call hget]
  cases (w.callStep plan c).2 with
  | none => simp [hcalls, List.eraseIdx_append_of_length_le]
  | some left => simp [hcalls]

theorem acceptedIn_call_at {cs cs' : List Call} {c : Call} (hcalls : w.calls = cs ++ c :: cs') :
    acceptedIn plan w (.call cs.length) = acceptedStart (w.callStep plan c).2 := by
  have hget : w.calls[cs.length]? = some c := by simp [hcalls]
  simp only [acceptedIn, hget, Option.map_some]
  rcases (w.callStep plan c).2 with _ | _ | _ <;> rfl

theorem starts_callStep (plan : Plan) (w : World) (c : Call) :
    (w.callStep plan c).1.starts = w.starts := by
  have hm := callStep_move plan w c
  generalize (w.callStep plan c).1 = after, (w.callStep plan c).2 = left at hm
  cases hm <;> rfl

theorem accepted_append (plan : Plan) (w : World) (earlier later : List Action) :
    World.accepted plan w (earlier ++ later) =
      World.accepted plan w earlier ++ World.accepted plan (w.run plan earlier) later :=
  gather_append (acceptedIn plan) earlier later

theorem accepted_toList (plan : Plan) (w : World) (a : Option Action) :
    World.accepted plan w a.toList = (a.map (acceptedIn plan w)).getD [] := by
  cases a <;> simp [World.accepted, gather]

/-- Only callers make calls. -/
theorem step_of_other (plan : Plan) (w : World) {a : Action} (hother : a.isOfCaller = false) :
    (w.step plan a).calls = w.calls ∧ (w.step plan a).starts = w.starts ∧
      acceptedIn plan w a = [] := by
  have hm := step_move plan w a
  generalize w.step plan a = after at hm
  cases hm with
  | start | stop | call | noCall => cases hother
  | replyAtOnce | reply | unasked | advance => exact ⟨rfl, rfl, rfl⟩
  | task move => cases move <;> exact ⟨rfl, rfl, rfl⟩

/-- Every continuation is that of a start that was called for. -/
theorem Delivers.lt_starts (h : Delivers plan acc w) {id : CallId}
    (hid : id ∈ w.calls.flatMap Call.held ∨ id ∈ w.told.map (·.1)) : id < w.starts := by
  refine List.mem_range.mp (h.eachOnce.mem_iff.mp ?_)
  rcases hid with hid | hid
  · exact List.mem_append_left _ (List.mem_append_left _ (List.mem_append_left _ hid))
  · exact List.mem_append_right _ hid

namespace Twins

theorem withCalls (h : Twins hosts v w) (cs ds : List Call) (n m : Nat) :
    Twins hosts { v with calls := cs, starts := n } { w with calls := ds, starts := m } :=
  ⟨h.now, h.state, h.signal, h.task, h.trace⟩

/-- A start that was just called for has no part in anything so far. -/
theorem concat (h : Twins hosts v w) {fresh : CallId}
    (hfresh : ∀ told ∈ v.told.map (·.1), told ≠ fresh) : Twins (hosts ++ [fresh]) v w where
  now := h.now
  state := h.state.concat fresh
  signal := h.signal
  task := h.task.concat fresh
  trace := by
    rw [← h.trace]
    refine List.filterMap_congr fun happening hmem => ?_
    cases happening with
    | answered id outcome seen time =>
      have hne : id ≠ fresh :=
        hfresh id (List.mem_map.mpr ⟨(id, outcome), List.mem_filterMap.mpr ⟨_, hmem, rfl⟩, rfl⟩)
      rw [Happening.without, Happening.without, idxOf?_concat_of_ne hne]
    | lookup | event | counted => rfl

theorem reply (h : Twins hosts v w) (r : Reply) :
    Twins hosts (v.step plan (.reply r)) (w.step plan (.reply r)) := by
  have htask := h.task
  unfold World.step
  generalize v.task = task, w.task = task' at htask
  cases htask with
  | delivering => exact h
  | same =>
    cases task with
    | asking => exact h.withTask (.same rfl)
    | polling attempt lookup =>
      cases lookup with
      | outstanding => exact h.withTask (.same rfl)
      | due | replied => exact h
    | absent | beginning | checking | judging | pausing | closing | delivering | finished
    | overflowed => exact h

theorem advance (h : Twins hosts v w) (d : Duration) :
    Twins hosts (v.step plan (.advance d)) (w.step plan (.advance d)) where
  now := congrArg (· + d) h.now
  state := h.state
  signal := h.signal
  task := h.task
  trace := h.trace

/-- A stop that only guests have signalled comes when the task tells the outcome, or after that. -/
theorem heard {replies : List Reply} (h : Twins hosts v w) (hkv : Keeps acc v) (hkw : Keeps acc' w)
    (hc : Concludes plan acc' replies w) :
    v.shared.stopSignalled = w.shared.stopSignalled ∨ w.task.isTelling ∨ w.task = .finished := by
  rcases h.signal with hsame | hended
  · exact .inl hsame
  have hover (hp : w.shared.phase = .succeeded ∨ w.shared.phase = .failed) :
      w.task.isTelling ∨ w.task = .finished := by
    obtain ⟨_, -, ⟨before, ht, -⟩ | ⟨ht, -⟩⟩ := hc.ended hp
    · exact .inl (by rw [ht]; rfl)
    · exact .inr ht
  cases hp : w.shared.phase with
  | idle | attempting => simp [hp, Phase.isTerminal] at hended
  | succeeded => exact .inr (hover (.inl hp))
  | failed => exact .inr (hover (.inr hp))
  | cancelled =>
    refine .inl ?_
    rw [hkw.stopped (.inl hp), hkv.stopped (.inl (h.state.phase_eq.trans hp))]

end Twins

end World

theorem CallsPair.ofOption {hosts : List CallId} {ended : Bool} {c d : Option Call}
    (h : Option.Rel (CallPair hosts) c d) :
    CallsPair hosts ended (c.map fun _ => false).toList c.toList d.toList := by
  cases h with
  | none => exact .nil
  | some h => exact .own h .nil

theorem serves_of_accepted {hosts : List CallId} {c d : Option Call}
    (h : Option.Rel (CallPair hosts) c d) :
    List.Forall₂ (Serves hosts) (acceptedStart c) (acceptedStart d) := by
  cases h with
  | none => exact .nil
  | some h =>
    cases h with
    | accepted h => exact .cons h .nil
    | starting | refused | stopping | signalled | stopped => exact .nil

namespace Party

variable {plan : Plan} {p : Party} {w : World} {t : Turn} {acc acc' : List CallId}
  {replies : List Reply}

/-- What holds between the turns of every party with discreet guests, and the run without them. -/
structure Mirrors (p : Party) (acc acc' : List CallId) (w : World) : Prop where
  twins : World.Twins p.hosts p.world w
  calls : CallsPair p.hosts p.world.shared.phase.isTerminal p.marks p.world.calls w.calls
  accepted : List.Forall₂ (Serves p.hosts) acc acc'
  starts : w.starts = p.hosts.length
  nodup : p.hosts.Nodup
  below : ∀ id ∈ p.hosts, id < p.world.starts

/-- What a turn makes of a party, and what it is without guests. -/
def MirrorsAfter (plan : Plan) (p : Party) (acc acc' : List CallId) (w : World) (t : Turn) : Prop :=
  Mirrors (p.step plan t) (acc ++ World.acceptedIn plan p.world t.action)
    (acc' ++ World.accepted plan w (p.ownAction? t).toList) (w.run plan (p.ownAction? t).toList)

namespace Mirrors

theorem mirrorsAfter_of_own {a : Action} (hown : p.ownAction? t = some a)
    (h : Mirrors (p.step plan t) (acc ++ World.acceptedIn plan p.world t.action)
      (acc' ++ World.acceptedIn plan w a) (w.step plan a)) : MirrorsAfter plan p acc acc' w t := by
  rw [MirrorsAfter, hown, World.accepted_toList]
  exact h

theorem mirrorsAfter_of_guest (hown : p.ownAction? t = none)
    (h : Mirrors (p.step plan t) (acc ++ World.acceptedIn plan p.world t.action) acc' w) :
    MirrorsAfter plan p acc acc' w t := by
  rw [MirrorsAfter, hown, World.accepted_toList, Option.map_none, Option.getD_none, List.append_nil]
  exact h

theorem mirrorsAfter_of_same {a : Action} (hown : p.ownAction? t = some a)
    (haccepted : World.acceptedIn plan p.world t.action = [])
    (haccepted' : World.acceptedIn plan w a = [])
    (h : Mirrors (p.step plan t) acc acc' (w.step plan a)) : MirrorsAfter plan p acc acc' w t := by
  refine mirrorsAfter_of_own hown ?_
  rwa [haccepted, haccepted', List.append_nil, List.append_nil]

theorem start_step (h : Mirrors p acc acc' w) (hd : World.Delivers plan acc p.world)
    (runtime guest : Bool) : MirrorsAfter plan p acc acc' w { action := .start runtime, guest } := by
  have hfresh : p.world.starts ∉ p.hosts := fun hmem => Nat.lt_irrefl _ (h.below _ hmem)
  cases guest with
  | true =>
    have hcalls := h.calls.append (.guest (.starting hfresh runtime) .nil)
    refine mirrorsAfter_of_guest rfl ?_
    rw [List.append_nil] at hcalls
    exact {
      twins := h.twins.withCalls _ w.calls _ w.starts
      calls := hcalls
      accepted := (List.append_nil acc).symm ▸ h.accepted
      starts := h.starts
      nodup := h.nodup
      below := fun id hid => Nat.lt_succ_of_lt (h.below id hid) }
  | false =>
    have hserves : Serves (p.hosts ++ [p.world.starts]) p.world.starts w.starts :=
      h.starts ▸ serves_concat_self hfresh
    have htwins := h.twins.concat fun id hid => Nat.ne_of_lt (hd.lt_starts (.inr hid))
    have hcalls := h.calls.concat fun c hc id hid =>
      Nat.ne_of_lt (hd.lt_starts (.inl (List.mem_flatMap.mpr ⟨c, hc, hid⟩)))
    refine mirrorsAfter_of_same rfl rfl rfl ?_
    exact {
      twins := htwins.withCalls _ _ _ _
      calls := hcalls.append (.own (.starting hserves runtime) .nil)
      accepted := h.accepted.imp fun _ _ hs => hs.concat _
      starts := by simp [step, hostsAfter, World.step, h.starts]
      nodup := List.nodup_append.mpr ⟨h.nodup, List.nodup_singleton _, fun id hid id' hid' heq =>
        hfresh (List.mem_singleton.mp hid' ▸ heq ▸ hid)⟩
      below := fun id hid => by
        rcases List.mem_append.mp hid with hid | hid
        · exact Nat.lt_succ_of_lt (h.below id hid)
        · exact List.mem_singleton.mp hid ▸ Nat.lt_succ_self _ }

theorem stop_step (h : Mirrors p acc acc' w) (runtime guest : Bool) :
    MirrorsAfter plan p acc acc' w { action := .stop runtime, guest } := by
  cases guest with
  | true =>
    have hcalls := h.calls.append (.guest (.stopping runtime) .nil)
    refine mirrorsAfter_of_guest rfl ?_
    rw [List.append_nil] at hcalls
    exact {
      twins := h.twins.withCalls _ w.calls p.world.starts w.starts
      calls := hcalls
      accepted := (List.append_nil acc).symm ▸ h.accepted
      starts := h.starts
      nodup := h.nodup
      below := h.below }
  | false =>
    refine mirrorsAfter_of_same rfl rfl rfl ?_
    exact {
      twins := h.twins.withCalls _ _ p.world.starts w.starts
      calls := h.calls.append (.own (.stopping runtime) .nil)
      accepted := h.accepted
      starts := h.starts
      nodup := h.nodup
      below := h.below }

/-- What is not done by a caller is done without guests as well. -/
theorem other_step (h : Mirrors p acc acc' w) (hd : World.Delivers plan acc p.world) (t : Turn)
    (hother : t.action.isOfCaller = false)
    (htwins : World.Twins p.hosts (p.world.step plan t.action) (w.step plan t.action)) :
    MirrorsAfter plan p acc acc' w t := by
  obtain ⟨hcalls, hstarts, haccepted⟩ := World.step_of_other plan p.world hother
  obtain ⟨hcalls', hstarts', haccepted'⟩ := World.step_of_other plan w hother
  have hended : p.world.shared.phase.isTerminal →
      (p.world.step plan t.action).shared.phase.isTerminal := fun ht => by
    rw [hd.phase_step_of_terminal ht]
    exact ht
  obtain ⟨hown, hmarks, hhosts⟩ : p.ownAction? t = some t.action ∧ p.marksAfter plan t = p.marks ∧
      p.hostsAfter t = p.hosts := by
    obtain ⟨a, guest⟩ := t
    cases a with
    | task | reply | advance => exact ⟨rfl, rfl, rfl⟩
    | start | stop | call => cases hother
  refine mirrorsAfter_of_same hown haccepted haccepted' ?_
  unfold step
  rw [hmarks, hhosts]
  exact {
    twins := htwins
    calls := by
      rw [hcalls, hcalls']
      exact h.calls.mono hended
    accepted := h.accepted
    starts := hstarts'.trans h.starts
    nodup := h.nodup
    below := fun id hid => hstarts ▸ h.below id hid }

theorem marksAfter_call_at {cs cs' : List Call} {ms ms' : List Bool} {c : Call} {m : Bool}
    (hcs : p.world.calls = cs ++ c :: cs') (hms : p.marks = ms ++ m :: ms')
    (hlength : ms.length = cs.length) (guest : Bool) :
    p.marksAfter plan { action := .call cs.length, guest } =
      ms ++ ((p.world.callStep plan c).2.map fun _ => m).toList ++ ms' := by
  have hget : p.world.calls[cs.length]? = some c := by simp [hcs]
  simp only [marksAfter, hget, Option.map_some]
  cases (p.world.callStep plan c).2 with
  | none => simp [hms, ← hlength, List.eraseIdx_append_of_length_le]
  | some left => simp [hms]

/-- The step of one call, between the calls before it and after it. -/
theorem mirrors_of_callStep (h : Mirrors p acc acc' w) {cs cs' ds ds' : List Call}
    {ms ms' : List Bool} {c : Call} {m : Bool} {w' : World} {left' : List Call}
    {new' : List CallId} (hcs : p.world.calls = cs ++ c :: cs') (hms : p.marks = ms ++ m :: ms')
    (earlier : CallsPair p.hosts p.world.shared.phase.isTerminal ms cs ds)
    (later : CallsPair p.hosts p.world.shared.phase.isTerminal ms' cs' ds')
    (hended : p.world.shared.phase.isTerminal →
      (p.world.step plan (.call cs.length)).shared.phase.isTerminal)
    (htwins : World.Twins p.hosts (p.world.callStep plan c).1 w')
    (hleft : CallsPair p.hosts p.world.shared.phase.isTerminal
      ((p.world.callStep plan c).2.map fun _ => m).toList (p.world.callStep plan c).2.toList left')
    (haccepted : List.Forall₂ (Serves p.hosts) (acceptedStart (p.world.callStep plan c).2) new')
    (hstarts : w'.starts = w.starts) (guest : Bool) :
    Mirrors (p.step plan { action := .call cs.length, guest })
      (acc ++ World.acceptedIn plan p.world (.call cs.length)) (acc' ++ new')
      { w' with calls := ds ++ left' ++ ds' } := by
  let t : Turn := { action := .call cs.length, guest }
  have hbelow := World.starts_callStep plan p.world c
  have hmarks : (p.step plan t).marks = _ := marksAfter_call_at hcs hms earlier.length_eq.1 guest
  have hworld : (p.step plan t).world = _ := World.step_call_at hcs
  have hcalls : (p.step plan t).world.calls = _ := congrArg World.calls hworld
  have hended' : p.world.shared.phase.isTerminal → (p.step plan t).world.shared.phase.isTerminal :=
    hended
  rw [World.acceptedIn_call_at hcs]
  exact {
    twins := by
      rw [hworld]
      exact htwins.withCalls _ _ _ _
    calls := by
      rw [hmarks, hcalls]
      exact ((earlier.mono hended').append (hleft.mono hended')).append (later.mono hended')
    accepted := List.rel_append h.accepted haccepted
    starts := hstarts.trans h.starts
    nodup := h.nodup
    below := by
      rw [hworld]
      exact fun id hid => hbelow ▸ h.below id hid }

/-- The call at a place of others is at its own place without guests, and takes the same step. -/
theorem own_call_step (h : Mirrors p acc acc' w) {cs cs' ds ds' : List Call} {ms ms' : List Bool}
    {c d : Call} (hcs : p.world.calls = cs ++ c :: cs') (hds : w.calls = ds ++ d :: ds')
    (hms : p.marks = ms ++ false :: ms') (hcall : CallPair p.hosts c d)
    (earlier : CallsPair p.hosts p.world.shared.phase.isTerminal ms cs ds)
    (later : CallsPair p.hosts p.world.shared.phase.isTerminal ms' cs' ds')
    (hended : p.world.shared.phase.isTerminal →
      (p.world.step plan (.call cs.length)).shared.phase.isTerminal) (guest : Bool) :
    MirrorsAfter plan p acc acc' w { action := .call cs.length, guest } := by
  obtain ⟨hlength, hcount⟩ := earlier.length_eq
  have hown : p.ownAction? { action := .call cs.length, guest } = some (.call ds.length) := by
    simp [ownAction?, place, hms, ← hlength, hcount]
  obtain ⟨htwins, hleft⟩ := h.twins.callStep plan hcall
  refine mirrorsAfter_of_own hown ?_
  rw [World.acceptedIn_call_at hds, World.step_call_at hds]
  exact h.mirrors_of_callStep hcs hms earlier later hended htwins (.ofOption hleft)
    (serves_of_accepted hleft) (World.starts_callStep plan w d) guest

/-- A step of a guest's call is not seen by anyone else. -/
theorem guest_callStep (plan : Plan) {hosts : List CallId} {v w : World} {c : Call}
    (h : World.Twins hosts v w) (hcall : GuestCall hosts v.shared.phase.isTerminal c)
    (hnothing : c.comesToNothing v.shared) :
    World.Twins hosts (v.callStep plan c).1 w ∧ acceptedStart (v.callStep plan c).2 = [] ∧
      ∀ left, (v.callStep plan c).2 = some left →
        GuestCall hosts v.shared.phase.isTerminal left := by
  have hm := World.callStep_move plan v c
  generalize (v.callStep plan c).1 = after, (v.callStep plan c).2 = left at hm
  cases hcall with
  | starting hid runtime =>
    cases hm with
    | accept id idle => simp [Call.comesToNothing, idle] at hnothing
    | refuse id runtime reason =>
      refine ⟨h, rfl, ?_⟩
      rintro - ⟨⟩
      exact .refused hid reason runtime
  | @refused id hid reason runtime =>
    cases hm
    have hunseen : (v.answer (some id) (.error reason) runtime).filterMap
        (Happening.without hosts) = [] := by
      simp [World.answer, Happening.without, List.idxOf?_eq_none_iff.mpr hid]
    refine ⟨h.emit hunseen, rfl, ?_⟩
    rintro - ⟨⟩
  | stopping runtime =>
    cases hm
    have hended : w.shared.phase.isTerminal := h.state.phase_eq ▸ hnothing
    refine ⟨⟨h.now, h.state.overhear, .inr hended, h.task, h.trace⟩, rfl, ?_⟩
    rintro - ⟨⟩
    exact .signalled hnothing runtime
  | signalled hended runtime =>
    cases hm with
    | late =>
      refine ⟨h, rfl, ?_⟩
      rintro - ⟨⟩
    | cancel _ going => simp [going] at hended

theorem guest_call_step (h : Mirrors p acc acc' w) {cs cs' ds ds' : List Call} {ms ms' : List Bool}
    {c : Call} (hcs : p.world.calls = cs ++ c :: cs') (hds : w.calls = ds ++ ds')
    (hms : p.marks = ms ++ true :: ms') (hcall : GuestCall p.hosts p.world.shared.phase.isTerminal c)
    (earlier : CallsPair p.hosts p.world.shared.phase.isTerminal ms cs ds)
    (later : CallsPair p.hosts p.world.shared.phase.isTerminal ms' cs' ds')
    (hended : p.world.shared.phase.isTerminal →
      (p.world.step plan (.call cs.length)).shared.phase.isTerminal)
    (hnothing : c.comesToNothing p.world.shared) (guest : Bool) :
    MirrorsAfter plan p acc acc' w { action := .call cs.length, guest } := by
  have hown : p.ownAction? { action := .call cs.length, guest } = none := by
    simp [ownAction?, hms, ← earlier.length_eq.1]
  obtain ⟨htwins, hrefused, hleft⟩ := guest_callStep plan h.twins hcall hnothing
  have hpair : CallsPair p.hosts p.world.shared.phase.isTerminal
      ((p.world.callStep plan c).2.map fun _ => true).toList (p.world.callStep plan c).2.toList
      [] := by
    generalize (p.world.callStep plan c).2 = left at hleft
    cases left with
    | none => exact .nil
    | some left => exact .guest (hleft left rfl) .nil
  have haccepted : List.Forall₂ (Serves p.hosts) (acceptedStart (p.world.callStep plan c).2) [] := by
    rw [hrefused]
    exact .nil
  have hmirrors := h.mirrors_of_callStep hcs hms earlier later hended htwins hpair haccepted rfl guest
  refine mirrorsAfter_of_guest hown ?_
  rw [List.append_nil, List.append_nil, ← hds] at hmirrors
  exact hmirrors

theorem noCall_step (h : Mirrors p acc acc' w) {i : Nat} (hi : p.world.calls[i]? = none)
    (guest : Bool) : MirrorsAfter plan p acc acc' w { action := .call i, guest } := by
  obtain ⟨hlength, hcount⟩ := h.calls.length_eq
  have hle : p.marks.length ≤ i := hlength ▸ List.getElem?_eq_none_iff.mp hi
  have hown : p.ownAction? { action := .call i, guest } =
      some (.call (w.calls.length + (i - p.marks.length))) := by
    simp [ownAction?, place, List.take_of_length_le hle, hcount, List.getElem?_eq_none hle]
  have hnone : w.calls[w.calls.length + (i - p.marks.length)]? = none :=
    List.getElem?_eq_none (Nat.le_add_right _ _)
  refine mirrorsAfter_of_own hown ?_
  simp only [step, marksAfter, hostsAfter, World.step, World.acceptedIn, hi, hnone, Option.map_none,
    List.append_nil]
  exact ⟨h.twins, h.calls, h.accepted, h.starts, h.nodup, h.below⟩

theorem call_step (h : Mirrors p acc acc' w) (hd : World.Delivers plan acc p.world) (i : Nat)
    (guest : Bool) (admitted : p.admits { action := .call i, guest }) :
    MirrorsAfter plan p acc acc' w { action := .call i, guest } := by
  cases hi : p.world.calls[i]? with
  | none => exact h.noCall_step hi guest
  | some c =>
    obtain ⟨hlt, hget⟩ := List.getElem?_eq_some_iff.mp hi
    have hcs : p.world.calls = p.world.calls.take i ++ c :: p.world.calls.drop (i + 1) := by
      rw [← hget, List.getElem_cons_drop, List.take_append_drop]
    have hplace : (p.world.calls.take i).length = i := List.length_take_of_le (Nat.le_of_lt hlt)
    have hended : p.world.shared.phase.isTerminal →
        (p.world.step plan (.call i)).shared.phase.isTerminal := fun ht => by
      rw [hd.phase_step_of_terminal ht]
      exact ht
    generalize p.world.calls.take i = cs, p.world.calls.drop (i + 1) = cs' at hcs hplace
    subst hplace
    -- The calls before this one and after it are paired as they were.
    have hpair := h.calls
    rw [hcs] at hpair
    obtain ⟨ms, ms', ds, ds', hms, hds, earlier, hrest⟩ := hpair.split
    cases hrest with
    | own hcall later => exact h.own_call_step hcs hds hms hcall earlier later hended guest
    | guest hcall later =>
      have hmark : p.marks.getD cs.length false = true := by
        simp [hms, ← earlier.length_eq.1]
      have hnothing : c.comesToNothing p.world.shared := by
        simpa only [admits, hmark, hi, Bool.not_true, Bool.false_or, Option.all_some] using admitted
      exact h.guest_call_step hcs hds hms hcall earlier later hended hnothing guest

theorem step (h : Mirrors p acc acc' w) (hd : World.Delivers plan acc p.world)
    (hkv : World.Keeps acc p.world) (hkw : World.Keeps acc' w)
    (hc : World.Concludes plan acc' replies w) (admitted : p.admits t) :
    MirrorsAfter plan p acc acc' w t := by
  obtain ⟨a, guest⟩ := t
  cases a with
  | start runtime => exact h.start_step hd runtime guest
  | stop runtime => exact h.stop_step runtime guest
  | call i => exact h.call_step hd i guest admitted
  | task => exact h.other_step hd _ rfl (h.twins.taskStep (h.twins.heard hkv hkw hc))
  | reply r => exact h.other_step hd _ rfl (h.twins.reply r)
  | advance d => exact h.other_step hd _ rfl (h.twins.advance d)

theorem init : Mirrors {} [] [] {} where
  twins := ⟨rfl, .mk {} none false .none, .inl rfl, .same rfl, rfl⟩
  calls := .nil
  accepted := .nil
  starts := rfl
  nodup := .nil
  below := by simp

theorem run (plan : Plan) {turns : List Turn} (discreet : Discreet plan {} turns) :
    let p := Party.run plan turns
    Mirrors p (World.accepted plan {} (turns.map Turn.action)) (World.accepted plan {} p.own)
      (World.run plan {} p.own) := by
  induction turns using List.reverseRecOn with
  | nil => exact init
  | append_singleton turns t ih =>
    -- The invariants of all runs hold of both: the one with guests and the one without.
    obtain ⟨hearlier, admitted⟩ := discreet_concat.mp discreet
    have hmirrors := ih hearlier
    have hworld := run_world plan turns
    have hd := World.Delivers.run plan (turns.map Turn.action)
    have hk := World.Keeps.run plan (turns.map Turn.action)
    rw [← hworld] at hd hk
    have hstep := hmirrors.step hd hk (.run plan _) (.run plan _) admitted
    dsimp only
    have hown : ((Party.run plan turns).step plan t).own =
        (Party.run plan turns).own ++ ((Party.run plan turns).ownAction? t).toList := rfl
    rw [run_concat, List.map_append, List.map_singleton, World.accepted, World.gather_concat,
      ← World.accepted, ← hworld, hown, World.run_append, World.accepted_append]
    exact hstep

end Mirrors

end Party

/-- Why a start is refused. -/
def refusal (plan : Plan) (s : Shared) (runtime : Bool) : Failure :=
  if !runtime then .noRuntime
  else if s.phase = .cancelled then .cancelled plan.target.interface
  else .alreadyStarted

/-- Guests, whose calls are in the first of these worlds only, change nothing that can be observed. -/
structure SeenAlike (hosts : List CallId) (v w : World) : Prop where
  now : v.now = w.now
  phase : v.shared.phase = w.shared.phase
  attempts : v.shared.attempts = w.shared.attempts
  lookups : v.lookups = w.lookups
  events : v.events = w.events
  counted : v.counted = w.counted
  answers : ∀ k id, hosts[k]? = some id → v.answersTo id = w.answersTo k
  /-- This holds in the order in which it happened, and with what each caller saw when it was told. -/
  trace : v.trace.filterMap (Happening.without hosts) = w.trace

theorem Serves.getElem? {hosts : List CallId} {id k : CallId} (h : Serves hosts id k) :
    hosts[k]? = some id := by
  obtain ⟨hlt, hget, -⟩ := List.idxOf?_eq_some_iff.mp h
  exact List.getElem?_eq_some_iff.mpr ⟨hlt, hget⟩

theorem serves_of_getElem? {hosts : List CallId} (hnodup : hosts.Nodup) {id k : CallId}
    (h : hosts[k]? = some id) : Serves hosts id k := by
  obtain ⟨hlt, hget⟩ := List.getElem?_eq_some_iff.mp h
  refine List.idxOf?_eq_some_iff.mpr ⟨hlt, hget, fun j hj heq => ?_⟩
  -- A number occurs once, so its first place is this one.
  have hsame := (List.Nodup.getElem_inj_iff hnodup).mp (heq.trans hget.symm)
  omega

namespace World

variable {plan : Plan} {v w : World} {hosts : List CallId}

/-- What is observed of others than those who are told is observed without guests. -/
theorem filterMap_without {α : Type} {read : Happening → Option α}
    (untold : ∀ id outcome seen time, read (.answered id outcome seen time) = none)
    (hs : List Happening) :
    (hs.filterMap (Happening.without hosts)).filterMap read = hs.filterMap read := by
  rw [List.filterMap_filterMap]
  refine List.filterMap_congr fun happening _ => ?_
  cases happening with
  | answered id outcome seen time =>
    rw [untold]
    cases h : hosts.idxOf? id <;> simp [Happening.without, h, untold]
  | lookup | event | counted => rfl

theorem answersTo_without (htrace : v.trace.filterMap (Happening.without hosts) = w.trace)
    {id k : CallId} (hserves : Serves hosts id k) : v.answersTo id = w.answersTo k := by
  rw [answersTo_eq_filterMap, answersTo_eq_filterMap, ← htrace, List.filterMap_filterMap]
  refine List.filterMap_congr fun happening _ => ?_
  cases happening with
  | answered caller outcome seen time =>
    have hcaller : caller = id ↔ hosts.idxOf? caller = some k := by
      refine ⟨fun h => h ▸ hserves, fun h => ?_⟩
      have hget := Serves.getElem? h
      rw [hserves.getElem?] at hget
      exact (Option.some.inj hget).symm
    cases h : hosts.idxOf? caller <;> simp [Happening.without, Happening.toldTo?, hcaller, h]
  | lookup | event | counted => rfl

theorem Twins.seenAlike (h : Twins hosts v w) (hnodup : hosts.Nodup) : SeenAlike hosts v w where
  now := h.now
  phase := h.state.phase_eq
  attempts := h.state.attempts_eq
  lookups := by
    rw [lookups, lookups, ← h.trace, ← List.filterMap_reverse, filterMap_without fun _ _ _ _ => rfl]
  events := by
    rw [events, events, ← h.trace, ← List.filterMap_reverse, filterMap_without fun _ _ _ _ => rfl]
  counted := by
    rw [counted, counted, ← h.trace, ← List.filterMap_reverse, filterMap_without fun _ _ _ _ => rfl]
  answers k id hid := answersTo_without h.trace (serves_of_getElem? hnodup hid)
  trace := h.trace

/-- A start that is refused has one step left, in which its caller is told. -/
theorem step_refused (plan : Plan) {i : Nat} {id : CallId} {runtime : Bool}
    (hc : w.calls[i]? = some (.starting id runtime))
    (hnothing : (Call.starting id runtime).comesToNothing w.shared) :
    w.step plan (.call i) =
      { w with calls := w.calls.set i (.refused id (refusal plan w.shared runtime) runtime) } := by
  rw [step_call hc]
  cases runtime with
  | false => rfl
  | true =>
    simp only [Call.comesToNothing, Bool.not_true, Bool.false_or, bne_iff_ne] at hnothing
    cases hp : w.shared.phase with
    | idle => exact absurd hp hnothing
    | attempting | succeeded | failed | cancelled => simp [callStep, Shared.start, refusal, hp]

theorem accepted_of_idle {i : Nat} {id : CallId} {runtime : Bool}
    (hc : w.calls[i]? = some (.starting id runtime))
    (hsomething : (Call.starting id runtime).comesToNothing w.shared = false) :
    acceptedIn plan w (.call i) = [id] ∧ (w.step plan (.call i)).shared.phase = .attempting := by
  simp only [Call.comesToNothing, Bool.or_eq_false_iff, bne_eq_false_iff_eq, Bool.not_eq_false']
    at hsomething
  obtain ⟨rfl, hp⟩ := hsomething
  rw [step_call hc]
  simp [acceptedIn, hc, callStep, Shared.start, hp]

/-- The call of a refused start does not return before its caller is told. -/
theorem told_of_refused (plan : Plan) {id : CallId} {reason : Failure} {runtime : Bool}
    (hc : .refused id reason runtime ∈ w.calls) (more : List Action) :
    .refused id reason runtime ∈ (w.run plan more).calls ∨
      (id, .error reason) ∈ (w.run plan more).told := by
  have howed : (∃ c ∈ (w.run plan more).calls, c = .refused id reason runtime) ∨
      (id, .error reason) ∈ (w.run plan more).told := by
    induction more using List.reverseRecOn with
    | nil => exact .inl ⟨_, hc, rfl⟩
    | append_singleton more a ih =>
      rw [run_concat]
      refine owed_step ?_ ih a
      rintro c rfl
      exact .inr (by simp [callStep])
  rcases howed with ⟨_, hmem, rfl⟩ | ho
  · exact .inl hmem
  · exact .inr ho

/-- From the step in which a start is refused, its caller is told why, once, before the call returns. -/
theorem told_refusal (earlier : List Action) {i : Nat} {id : CallId} {runtime : Bool}
    (hc : (World.run plan {} earlier).calls[i]? = some (.starting id runtime))
    (hnothing : (Call.starting id runtime).comesToNothing (World.run plan {} earlier).shared)
    (more : List Action) :
    let w := World.run plan {} earlier
    let reason := refusal plan w.shared runtime
    let later := (w.step plan (.call i)).run plan more
    (.refused id reason runtime ∈ later.calls ∧ later.answersTo id = []) ∨
      later.answersTo id = [.error reason] := by
  intro w reason later
  have hd := Delivers.run plan (earlier ++ [.call i] ++ more)
  rw [run_append, run_concat] at hd
  have hrefused : .refused id reason runtime ∈ (w.step plan (.call i)).calls := by
    obtain ⟨hlt, -⟩ := List.getElem?_eq_some_iff.mp hc
    rw [step_refused plan hc hnothing]
    exact List.mem_set hlt _
  rcases told_of_refused plan hrefused more with hmem | ho
  · refine .inl ⟨hmem, answersTo_of_held hd ?_⟩
    have hheld : id ∈ later.calls.flatMap Call.held :=
      List.mem_flatMap.mpr ⟨_, hmem, List.mem_singleton_self _⟩
    exact List.mem_append_left _ (List.mem_append_left _ hheld)
  · exact .inr (hd.answersTo_eq ho)

end World

namespace Party

/-- Starts that are refused and stops that come too late are inert: the run without them is seen
alike, and so at every moment, as each part of a run is one. -/
theorem guests_are_inert (plan : Plan) :
    -- Guests may call at any moment, and the next step after a caller was told may be theirs.
    (∀ turns, Discreet plan {} turns →
      let p := Party.run plan turns
      SeenAlike p.hosts (World.run plan {} (turns.map Turn.action)) (World.run plan {} p.own) ∧
        List.Forall₂ (fun id k => p.hosts[k]? = some id)
          (World.accepted plan {} (turns.map Turn.action)) (World.accepted plan {} p.own)) ∧
    -- Every run is that of the hosts of some party, and goes on as without guests.
    (∀ turns more, Discreet plan {} turns → ∃ rest, Discreet plan {} (turns ++ rest) ∧
      (Party.run plan (turns ++ rest)).own = (Party.run plan turns).own ++ more) ∧
    -- A start is refused if it has no runtime or comes too late, and the refusal changes nothing.
    ∀ earlier i id runtime,
      let w := World.run plan {} earlier
      let after := w.step plan (.call i)
      let reason := refusal plan w.shared runtime
      w.calls[i]? = some (.starting id runtime) →
        ((Call.starting id runtime).comesToNothing w.shared → after.shared = w.shared ∧ ∀ more,
          let later := after.run plan more
          (.refused id reason runtime ∈ later.calls ∧ later.answersTo id = []) ∨
            later.answersTo id = [.error reason]) ∧
        ((Call.starting id runtime).comesToNothing w.shared = false →
          World.acceptedIn plan w (.call i) = [id] ∧ after.shared.phase = .attempting) := by
  refine ⟨fun turns discreet => ?_, fun turns more discreet => ?_, ?_⟩
  · have h := Mirrors.run plan discreet
    have hseen := h.twins.seenAlike h.nodup
    rw [run_world] at hseen
    exact ⟨hseen, h.accepted.imp fun _ _ hserves => hserves.getElem?⟩
  · obtain ⟨rest, hrest, hown⟩ := exists_rest plan (Party.run plan turns) more
    refine ⟨rest, discreet_append.mpr ⟨discreet, hrest⟩, ?_⟩
    rw [Party.run, List.foldl_append]
    exact hown
  · intro earlier i id runtime w after reason hc
    refine ⟨fun hnothing => ⟨?_, World.told_refusal earlier hc hnothing⟩, World.accepted_of_idle hc⟩
    have hrefused : after = _ := World.step_refused plan hc hnothing
    rw [hrefused]

/-- The outage with three guests: one starts without a runtime before the others, one starts while the
arbitration goes on, and one stops it when it has ended. -/
def outageWithGuests : List Turn :=
  [⟨.start false, true⟩, ⟨.call 0, false⟩, ⟨.call 0, false⟩] ++
    (World.outage.take 5).map (Turn.mk · false) ++
    [⟨.start true, true⟩, ⟨.call 0, false⟩, ⟨.call 0, false⟩] ++
    (World.outage.drop 5).map (Turn.mk · false) ++
    [⟨.stop true, true⟩, ⟨.call 0, false⟩, ⟨.call 0, false⟩]

theorem outage_beside_guests :
    let v := World.run World.twoAttempts {} (outageWithGuests.map Turn.action)
    let w := World.run World.twoAttempts {} World.outage
    v.lookups = w.lookups ∧ v.shared.phase = w.shared.phase ∧ v.answersTo 1 = w.answersTo 0 ∧
      v.answersTo 2 = [.error .alreadyStarted] ∧
      World.acceptedIn World.twoAttempts
        (World.run World.twoAttempts {} [.start false, .start true, .call 0]) (.call 1) = [1] := by
  intro v w
  obtain ⟨hseen, -, hrefused⟩ := guests_are_inert World.twoAttempts
  have hown : (run World.twoAttempts outageWithGuests).own = World.outage := by rfl
  have hhosts : (run World.twoAttempts outageWithGuests).hosts = [1] := by rfl
  obtain ⟨hseen, -⟩ := hseen outageWithGuests (by decide +kernel)
  rw [hown, hhosts] at hseen
  refine ⟨hseen.lookups, hseen.phase, hseen.answers 0 1 rfl, ?_, ?_⟩
  · obtain ⟨-, htold⟩ := (hrefused ((outageWithGuests.take 9).map Turn.action) 0 2 true rfl).1 rfl
    have hsplit : outageWithGuests.map Turn.action = (outageWithGuests.take 9).map Turn.action ++
        [.call 0] ++ (outageWithGuests.drop 10).map Turn.action := by rfl
    have hreturned : v.calls = [] := by rfl
    unfold v at hreturned ⊢
    rw [hsplit, World.run_append, World.run_concat] at hreturned ⊢
    refine (htold _).resolve_left fun ⟨hmem, _⟩ => ?_
    rw [hreturned] at hmem
    exact List.not_mem_nil hmem
  · exact ((hrefused [.start false, .start true, .call 0] 1 1 true rfl).2 rfl).1

end Party

end Arbiter.Arbitration
