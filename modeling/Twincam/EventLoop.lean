import Twincam.Lib.Fifo

/-!
# The event loop (`event_loop.cpp`)

`EventLoop` queues deferred calls in `calls_` and lets libevent run one of them for every once-event that fires.
Queueing a call is two separate steps, a locked push and an `event_base_once`, taken by any number of threads, and
an event does not name the call it runs.  `CallState` is the loop together with what libevent and the callers hold;
its machine takes these steps in any order and lets any `event_base_once` fail.

The number of queued calls is the number of once-events that can still fire, plus the callers between their two
steps, plus the failed `event_base_once` calls (`calls_length_eq`).  So a firing event always finds a call, and the
loop is an unbounded queue of calls (`deferred_calls_in_order`).
-/

namespace Twincam

/-! ### The class and the part of libevent it uses -/

/-- libevent's `event_base`: the once-events added and not yet fired, and the flags of `event_base_loop`. -/
structure EventBase where
  once : Nat
  running_loop : Bool
  event_break : Bool

/-- `event_base_once` with no timeout: on success one more event fires, at most once, on the loop thread. -/
def eventBaseOnce (base : EventBase) (ok : Bool) : EventBase :=
  if ok then { base with once := base.once + 1 } else base

def eventBaseLoopbreak (base : EventBase) : EventBase := { base with event_break := true }

/-- The entry of `event_base_loop`, which clears the break flag of an earlier loop. -/
def eventBaseLoopEnter (base : EventBase) : EventBase := { base with running_loop := true, event_break := false }

def eventBaseLoopLeave (base : EventBase) : EventBase := { base with running_loop := false }

/-- `class EventLoop`; `F` stands for `std::function<void()>`. -/
structure EventLoop (F : Type) where
  base_ : EventBase
  exitCode_ : Int
  calls_ : List F

namespace EventLoop

variable {F : Type}

def exit (loop : EventLoop F) (code : Int) : EventLoop F :=
  { loop with exitCode_ := code, base_ := eventBaseLoopbreak loop.base_ }

def pushCallList (loop : EventLoop F) (func : F) : EventLoop F :=
  { loop with calls_ := loop.calls_ ++ [func] }

/-- `EventLoop::callLater`, when no other thread runs between its two steps. -/
def callLater (loop : EventLoop F) (func : F) (ok : Bool) : EventLoop F :=
  let loop := loop.pushCallList func
  { loop with base_ := eventBaseOnce loop.base_ ok }

/-- `EventLoop::popCallList`: `call` is left as it was when the list is empty. -/
def popCallList (loop : EventLoop F) (call : Option F) : Option F × EventLoop F :=
  match loop.calls_ with
  | [] => (call, loop)
  | front :: rest => (some front, { loop with calls_ := rest })

/-- `EventLoop::dispatchCall`: the `std::function` it invokes, `none` for the empty one. -/
def dispatchCall (loop : EventLoop F) : Option F × EventLoop F := loop.popCallList none

end EventLoop

/-! ### Callers and events in any order -/

/-- The loop, the threads `T` between the two steps of `callLater`, the failed `event_base_once` calls, and the
history: the calls pushed so far and the functions `dispatchCall` invoked. -/
structure CallState (F T : Type) where
  loop : EventLoop F
  inFlight : List T
  failed : Nat
  pushed : List F
  invoked : List (Option F)

/-- One step: a thread pushes a call, the same thread schedules its once-event, or a once-event fires. -/
inductive CallEvent (F T : Type)
  | push (thread : T) (func : F)
  | once (thread : T) (ok : Bool)
  | fire

namespace CallState

variable {F T : Type} [DecidableEq T]

/-- The first step of `callLater`; a thread is in one `callLater` at a time. -/
def push (s : CallState F T) (thread : T) (func : F) : Option (CallState F T) :=
  if thread ∈ s.inFlight then none
  else some { s with
    loop := s.loop.pushCallList func
    inFlight := thread :: s.inFlight
    pushed := s.pushed ++ [func] }

/-- The second step of `callLater`. -/
def once (s : CallState F T) (thread : T) (ok : Bool) : Option (CallState F T) :=
  if thread ∈ s.inFlight then
    some { s with
      loop := { s.loop with base_ := eventBaseOnce s.loop.base_ ok }
      inFlight := s.inFlight.erase thread
      failed := if ok then s.failed else s.failed + 1 }
  else none

/-- A scheduled once-event fires: `dispatchCallback` runs `dispatchCall`. -/
def fire (s : CallState F T) : Option (Option F × CallState F T) :=
  if s.loop.base_.once = 0 then none
  else
    let fired := { s.loop with base_ := { s.loop.base_ with once := s.loop.base_.once - 1 } }
    let (call, loop) := fired.dispatchCall
    some (call, { s with loop := loop, invoked := s.invoked ++ [call] })

def Initial (s : CallState F T) : Prop :=
  s.loop.calls_ = [] ∧ s.loop.base_.once = 0 ∧ s.inFlight = [] ∧ s.failed = 0 ∧ s.pushed = [] ∧ s.invoked = []

def machine (F T : Type) [DecidableEq T] : Machine (CallState F T) (CallEvent F T) where
  init := Initial
  step s
    | .push thread func => s.push thread func
    | .once thread ok => s.once thread ok
    | .fire => s.fire.map (·.2)

/-- The two steps of one thread with nothing in between are `callLater`. -/
theorem push_once_eq_callLater {s : CallState F T} {t : T} (ht : t ∉ s.inFlight) (func : F) (ok : Bool) :
    ((s.push t func).bind (·.once t ok)).map (·.loop) = some (s.loop.callLater func ok) := by
  simp [push, once, ht, EventLoop.callLater]

/-! ### The counting invariant -/

/-- Every queued call has its own reason to be there. -/
def Balanced (s : CallState F T) : Prop :=
  s.loop.calls_.length = s.loop.base_.once + s.inFlight.length + s.failed

omit [DecidableEq T] in
theorem Initial.balanced {s : CallState F T} (h : s.Initial) : s.Balanced := by
  obtain ⟨hc, ho, hi, hf, -, -⟩ := h
  simp [Balanced, hc, ho, hi, hf]

theorem push_eq_some {s s' : CallState F T} {t : T} {func : F} (h : s.push t func = some s') :
    t ∉ s.inFlight ∧ s' = { s with
      loop := s.loop.pushCallList func, inFlight := t :: s.inFlight, pushed := s.pushed ++ [func] } := by
  unfold push at h
  split at h
  · cases h
  · exact ⟨‹_›, (Option.some.inj h).symm⟩

theorem once_eq_some {s s' : CallState F T} {t : T} {ok : Bool} (h : s.once t ok = some s') :
    t ∈ s.inFlight ∧ s' = { s with
      loop := { s.loop with base_ := eventBaseOnce s.loop.base_ ok }
      inFlight := s.inFlight.erase t
      failed := if ok then s.failed else s.failed + 1 } := by
  unfold once at h
  split at h
  · exact ⟨‹_›, (Option.some.inj h).symm⟩
  · cases h

omit [DecidableEq T] in
/-- What a firing event does when the calls are counted right: the oldest call runs. -/
theorem fire_eq_some {s s' : CallState F T} {call : Option F} (hb : s.Balanced) (h : s.fire = some (call, s')) :
    ∃ func rest, s.loop.calls_ = func :: rest ∧ call = some func ∧ 0 < s.loop.base_.once ∧
      s' = { s with
        loop := { s.loop with calls_ := rest, base_ := { s.loop.base_ with once := s.loop.base_.once - 1 } }
        invoked := s.invoked ++ [some func] } := by
  unfold fire at h
  split at h
  · cases h
  · rename_i hne
    cases hc : s.loop.calls_ with
    | nil =>
      -- no call would be left for an event that is still scheduled
      rw [Balanced, hc, List.length_nil] at hb
      omega
    | cons func rest =>
      simp only [EventLoop.dispatchCall, EventLoop.popCallList, hc, Option.some.injEq, Prod.mk.injEq] at h
      obtain ⟨rfl, rfl⟩ := h
      exact ⟨func, rest, rfl, rfl, Nat.pos_of_ne_zero hne, rfl⟩

theorem push_balanced {s s' : CallState F T} {t : T} {func : F} (hb : s.Balanced)
    (h : s.push t func = some s') : s'.Balanced := by
  obtain ⟨-, rfl⟩ := push_eq_some h
  simp only [Balanced, EventLoop.pushCallList, List.length_append, List.length_cons, List.length_nil] at hb ⊢
  omega

theorem once_balanced {s s' : CallState F T} {t : T} {ok : Bool} (hb : s.Balanced)
    (h : s.once t ok = some s') : s'.Balanced := by
  obtain ⟨hmem, rfl⟩ := once_eq_some h
  have hlen := List.length_erase_of_mem hmem
  have hpos := List.length_pos_of_mem hmem
  cases ok
  · simp only [Balanced, eventBaseOnce, hlen, Bool.false_eq_true, ↓reduceIte] at hb ⊢
    omega
  · simp only [Balanced, eventBaseOnce, hlen, ↓reduceIte] at hb ⊢
    omega

omit [DecidableEq T] in
theorem fire_balanced {s s' : CallState F T} {call : Option F} (hb : s.Balanced)
    (h : s.fire = some (call, s')) : s'.Balanced := by
  obtain ⟨func, rest, hc, -, hpos, rfl⟩ := fire_eq_some hb h
  simp only [Balanced, hc, List.length_cons] at hb ⊢
  omega

/-- The queued calls are counted by the scheduled events, the callers in flight and the failures. -/
theorem calls_length_eq {s : CallState F T} (h : (machine F T).Reachable s) : s.Balanced := by
  refine Machine.ReachableVia.invariant (M := machine F T) (fun _ hs => Initial.balanced hs) ?_ h
  rintro s (⟨t, func⟩ | ⟨t, ok⟩ | _) s' hb - hs
  · exact push_balanced hb hs
  · exact once_balanced hb hs
  · obtain ⟨⟨call, _⟩, hfire, rfl⟩ := Option.map_eq_some_iff.1 hs
    exact fire_balanced hb hfire

/-! ### The loop is a queue of calls -/

/-- The loop seen as an unbounded queue: pushed calls go in, invoked calls come out. -/
def Refines (s : CallState F T) (q : Fifo.State F) : Prop :=
  q.accepted = s.pushed ∧ q.contents = s.loop.calls_ ∧ s.invoked = q.emitted.map some

/-- Every step of the loop is a step of the queue, or does not touch it. -/
theorem refines_fifo {s : CallState F T} (h : (machine F T).Reachable s) :
    ∃ q, (Fifo.machine (α := F) ⊤).Reachable q ∧ s.Balanced ∧ s.Refines q := by
  refine Machine.ReachableVia.simulation (fun s q => s.Balanced ∧ s.Refines q) ?_ ?_ h
  · rintro s hs
    obtain ⟨hc, -, -, -, hp, hi⟩ := id hs
    exact ⟨⟨[], [], []⟩, rfl, hs.balanced, hp.symm, hc.symm, by simp [hi]⟩
  · rintro s q (⟨t, func⟩ | ⟨t, ok⟩ | _) s' ⟨hb, hacc, hcon, hinv⟩ - hs
    · have hb' := push_balanced hb hs
      obtain ⟨-, rfl⟩ := push_eq_some hs
      refine Or.inr ⟨.enqueue func, _, trivial, Fifo.step_enqueue (ENat.natCast_lt_top _) func, hb', ?_, ?_, hinv⟩
      · simp [hacc]
      · simp [hcon, EventLoop.pushCallList]
    · have hb' := once_balanced hb hs
      obtain ⟨-, rfl⟩ := once_eq_some hs
      exact Or.inl ⟨hb', hacc, hcon, hinv⟩
    · obtain ⟨⟨call, _⟩, hfire, rfl⟩ := Option.map_eq_some_iff.1 hs
      have hb' := fire_balanced hb hfire
      obtain ⟨func, rest, hc, -, -, rfl⟩ := fire_eq_some hb hfire
      rw [hc] at hcon
      refine Or.inr ⟨.dequeue, _, trivial, Fifo.step_dequeue hcon, hb', hacc, rfl, ?_⟩
      simp [hinv]

/-- Every deferred call runs exactly once and in order: in every reachable state, whatever the interleaving and the
failures, no event that can still fire finds the list empty and no empty function was invoked; what was invoked is
a prefix of what was pushed, the rest of it being queued; and the queue is counted by the events, callers and
failures, so it is empty when there are none. -/
theorem deferred_calls_in_order {s : CallState F T} (h : (machine F T).Reachable s) :
    (∀ call s', s.fire = some (call, s') → s.loop.calls_ ≠ [] ∧ call.isSome) ∧ none ∉ s.invoked ∧
    s.invoked <+: s.pushed.map some ∧ s.pushed.map some = s.invoked ++ s.loop.calls_.map some ∧
    s.loop.calls_.length = s.loop.base_.once + s.inFlight.length + s.failed ∧
    (s.failed = 0 → s.inFlight = [] → s.loop.base_.once = 0 → s.loop.calls_ = []) := by
  obtain ⟨q, hq, hb, hacc, hcon, hinv⟩ := refines_fifo h
  have hhist : s.pushed.map some = s.invoked ++ s.loop.calls_.map some := by
    rw [← hacc, (Fifo.accepted_eq hq).1, List.map_append, hinv, hcon]
  refine ⟨?_, ?_, ⟨_, hhist.symm⟩, hhist, hb, ?_⟩
  · intro call s' hs
    obtain ⟨func, rest, hc, rfl, -, -⟩ := fire_eq_some hb hs
    simp [hc]
  · simp [hinv]
  · intro hf hi ho
    rw [Balanced, hf, hi, ho] at hb
    exact List.length_eq_zero_iff.1 hb

/-- Two calls pushed by two threads; the first runs on the event of the second. -/
theorem deferred_calls_in_order_two :
    ∃ s, (machine String Nat).replay ⟨⟨⟨0, true, false⟩, -1, []⟩, [], 0, [], []⟩
        [.push 1 "first", .push 2 "second", .once 2 true, .fire] = some s ∧
      s.invoked = [some "first"] ∧ s.invoked <+: s.pushed.map some ∧
      s.loop.calls_.length = s.loop.base_.once + s.inFlight.length + s.failed := by
  refine ⟨_, rfl, rfl, ?_⟩
  have hrun : (machine String Nat).replay ⟨⟨⟨0, true, false⟩, -1, []⟩, [], 0, [], []⟩
    [.push 1 "first", .push 2 "second", .once 2 true, .fire] = some _ := rfl
  have h := deferred_calls_in_order (Machine.reachable_of_replay ⟨rfl, rfl, rfl, rfl, rfl, rfl⟩ hrun)
  exact ⟨h.2.2.1, h.2.2.2.2.1⟩

end CallState

end Twincam
