import Twincam.Lib.Progress
import Twincam.Lib.Search
import Mathlib.Data.List.Nodup

/-!
# The events of the event loop over its life (`addFdEvent`, `addTimerEvent`, `Event` and `~EventLoop` in
`event_loop.cpp`)

Besides the deferred calls, the loop has events: a callback that libevent runs whenever a file descriptor is ready or a
period has passed.  An `Event` of the loop owns the event of libevent, whose argument points back to the `Event`.

`Libevent` says what libevent makes of the calls, and which of them are wrong.  The loop, libevent and the user have
three views of one table, which every operation keeps (`Tracks`):

* `events_freed_iff`: over the life of a loop every call is right, and no event is left, if and only if libevent could
  create every event.
* `handlers_eq`: what libevent may run, and what a user of the loop has asked for, are the same.
-/

namespace Twincam

/-! ### libevent -/

/-- `struct timeval`. -/
structure Timeval where
  tv_sec : Nat
  tv_usec : Nat
deriving DecidableEq

def EV_READ : Nat := 0x02
def EV_WRITE : Nat := 0x04
def EV_PERSIST : Nat := 0x10

/-- The calls that concern the events, with the objects that they yield; a null pointer is `none`. -/
inductive LoopCall
  | eventBaseNew
  | newEvent (object : Nat)
  | eventNew (fd : Int) (events : Nat) (arg : Nat) (event : Option Nat)
  | eventAdd (event : Nat) (timeout : Option Timeval) (ret : Int)
  -- libevent calls `Event::dispatch` with the argument of an event
  | dispatch (event arg : Nat)
  | eprint (text : String)
  | eventDel (event : Option Nat)
  | eventFree (event : Option Nat)
  | deleteEvent (object : Nat)
  | eventBaseFree
  | libeventGlobalShutdown
deriving DecidableEq

/-- `struct event`. -/
structure LibeventEvent where
  event : Nat
  fd : Int
  events : Nat
  arg : Nat
  pending : Bool
  timeout : Option Timeval
deriving DecidableEq

/-- What there is: the event base, the `Event` objects of the loop, and the events of libevent. -/
structure Libevent where
  base : Bool
  objects : List Nat
  events : List LibeventEvent
deriving DecidableEq

namespace LibeventEvent

def add (r : LibeventEvent) (timeout : Option Timeval) : LibeventEvent := { r with pending := true, timeout := timeout }

def del (r : LibeventEvent) : LibeventEvent := { r with pending := false }

/-- An event that is not persistent is no longer pending when it has fired. -/
def fired (r : LibeventEvent) : LibeventEvent := if r.events &&& EV_PERSIST ≠ 0 then r else r.del

end LibeventEvent

namespace Libevent

def idle : Libevent := ⟨false, [], []⟩

def update (l : Libevent) (event : Nat) (f : LibeventEvent → LibeventEvent) : Libevent :=
  { l with events := l.events.map fun r => if r.event = event then f r else r }

def has (l : Libevent) (event : Nat) : Bool := l.base && l.events.any (·.event = event)

/-- A call on what is there.  `event_del` and `event_free` do not take a null pointer; an object goes when no pending
event points to it, and the base after its events. -/
def step (l : Libevent) : LoopCall → Option Libevent
  | .eventBaseNew => if l.base then none else some { l with base := true }
  | .newEvent object => some { l with objects := l.objects ++ [object] }
  | .eventNew fd events arg event =>
    if l.base then
      some { l with events := l.events ++ event.toList.map fun event => ⟨event, fd, events, arg, false, none⟩ }
    else none
  | .eventAdd event timeout ret =>
    if l.has event then some (if 0 ≤ ret then l.update event (·.add timeout) else l) else none
  | .dispatch event arg =>
    if l.base && l.events.any (fun r => r.event = event && r.arg = arg && r.pending) && decide (arg ∈ l.objects) then
      some (l.update event (·.fired))
    else none
  | .eprint _ => some l
  | .eventDel none | .eventFree none => none
  | .eventDel (some event) => if l.has event then some (l.update event (·.del)) else none
  | .eventFree (some event) =>
    if l.has event then some { l with events := l.events.filter (·.event ≠ event) } else none
  | .deleteEvent object =>
    if decide (object ∈ l.objects) && l.events.all (fun r => !(r.arg = object && r.pending)) then
      some { l with objects := l.objects.filter (· ≠ object) }
    else none
  | .eventBaseFree => if l.base && l.events.isEmpty then some { l with base := false } else none
  | .libeventGlobalShutdown => if l = idle then some l else none

def machine : Machine Libevent LoopCall where
  init l := l = idle
  step := step

end Libevent

/-! ### The loop -/

/-- `struct EventLoop::Event`, at the address `object`. -/
structure LoopEvent (F : Type) where
  object : Nat
  callback_ : F
  event_ : Option Nat

/-- How libevent answers when an event is added: whether it can create it, and the result of `event_add`. -/
structure AddAnswers where
  eventNew : Bool
  eventAdd : Int

/-- The events of an `EventLoop`, the callbacks that ran, and the calls so far. -/
structure LoopEvents (F : Type) where
  events_ : List (LoopEvent F)
  invoked : List F
  calls : List LoopCall

/-- The values of `EventLoop::EventType`. -/
def EventType.Read : Nat := 1
def EventType.Write : Nat := 2

/-- The events that `addFdEvent` asks for. -/
def fdEvents (type : Nat) : Nat :=
  (if type &&& EventType.Read ≠ 0 then EV_READ else 0) ||| (if type &&& EventType.Write ≠ 0 then EV_WRITE else 0) |||
    EV_PERSIST

/-- The timeout of `addTimerEvent`; the division by `1000000ULL` is one of unsigned numbers. -/
def timerTimeval (period : Int64) : Timeval :=
  ⟨(period.toUInt64 / 1000000).toNat, (period.toUInt64 % 1000000).toNat⟩

namespace LoopEvents

variable {F : Type}

/-- `EventLoop::EventLoop`, for which `event_base_new` succeeds. -/
def constructed : LoopEvents F := ⟨[], [], [.eventBaseNew]⟩

def call (s : LoopEvents F) (c : LoopCall) : LoopEvents F := { s with calls := s.calls ++ [c] }

/-- `Event::~Event`, and the end of the object. -/
def destructEvent (s : LoopEvents F) (event : LoopEvent F) : LoopEvents F :=
  ((s.call (.eventDel event.event_)).call (.eventFree event.event_)).call (.deleteEvent event.object)

/-- What `addFdEvent` and `addTimerEvent` have in common; objects are named by the number of calls before. -/
def addEvent (s : LoopEvents F) (fd : Int) (events : Nat) (timeout : Option Timeval) (callback : F)
    (answers : AddAnswers) (createFailed addFailed : String) : LoopEvents F :=
  let object := s.calls.length
  let event_ := if answers.eventNew then some (object + 1) else none
  let s := (s.call (.newEvent object)).call (.eventNew fd events object event_)
  match event_ with
  | none => (s.call (.eprint createFailed)).destructEvent ⟨object, callback, event_⟩
  | some event =>
    let s := s.call (.eventAdd event timeout answers.eventAdd)
    if answers.eventAdd < 0 then (s.call (.eprint addFailed)).destructEvent ⟨object, callback, event_⟩
    else { s with events_ := s.events_ ++ [⟨object, callback, event_⟩] }

/-- `EventLoop::addFdEvent`. -/
def addFdEvent (s : LoopEvents F) (fd : Int) (type : Nat) (callback : F) (answers : AddAnswers) : LoopEvents F :=
  s.addEvent fd (fdEvents type) none callback answers s!"Failed to create event for fd {fd}\n"
    s!"Failed to add event for fd {fd}\n"

/-- `EventLoop::addTimerEvent`. -/
def addTimerEvent (s : LoopEvents F) (period : Int64) (callback : F) (answers : AddAnswers) : LoopEvents F :=
  s.addEvent (-1) EV_PERSIST (some (timerTimeval period)) callback answers "Failed to create timer event\n"
    "Failed to add timer event\n"

/-- `Event::dispatch`: it runs the callback of the object that `arg` points to. -/
def dispatch (s : LoopEvents F) (event arg : Nat) : LoopEvents F :=
  { s.call (.dispatch event arg) with
    invoked := s.invoked ++ ((s.events_.find? (·.object = arg)).map (·.callback_)).toList }

/-- `events_.clear()`. -/
def clearEvents (s : LoopEvents F) : LoopEvents F := { s.events_.foldl destructEvent s with events_ := [] }

/-- `EventLoop::~EventLoop`. -/
def destruct (s : LoopEvents F) : LoopEvents F := (s.clearEvents.call .eventBaseFree).call .libeventGlobalShutdown

/-- What libevent has made of the calls; `none` when one of them was wrong. -/
def libevent (s : LoopEvents F) : Option Libevent := Libevent.machine.replay Libevent.idle s.calls

end LoopEvents

/-- The loop is asked for an event, or one that is pending fires. -/
inductive LoopStep (F : Type)
  | addFdEvent (fd : Int) (type : Nat) (callback : F) (answers : AddAnswers)
  | addTimerEvent (period : Int64) (callback : F) (answers : AddAnswers)
  | fire (event : Nat)

namespace LoopEvents

variable {F : Type}

def step (s : LoopEvents F) : LoopStep F → Option (LoopEvents F)
  | .addFdEvent fd type callback answers => some (s.addFdEvent fd type callback answers)
  | .addTimerEvent period callback answers => some (s.addTimerEvent period callback answers)
  | .fire event => s.libevent.bind fun l =>
    (l.events.find? fun r => r.event = event && r.pending).map fun r => s.dispatch event r.arg

def machine (F : Type) : Machine (LoopEvents F) (LoopStep F) where
  init s := s = constructed
  step := step

end LoopEvents

/-! ### What a user of the loop sees -/

/-- A request for a callback: when it is to run (the period in microseconds), and what it does. -/
structure Handler (F : Type) where
  fd : Int
  read : Bool
  write : Bool
  period : Option Nat
  callback : F
deriving DecidableEq

namespace LoopStep

variable {F : Type}

/-- The answers of libevent in a step. -/
def answers : LoopStep F → Option AddAnswers
  | .addFdEvent _ _ _ answers | .addTimerEvent _ _ answers => some answers
  | .fire _ => none

/-- libevent can create the event of the step. -/
def Creates (e : LoopStep F) : Prop := ∀ answers ∈ e.answers, answers.eventNew = true

/-- The handler that a step installs, unless `event_add` fails. -/
def handler : LoopStep F → Option (Handler F)
  | .addFdEvent fd type callback answers =>
    if answers.eventAdd < 0 then none
    else some ⟨fd, decide (type &&& EventType.Read ≠ 0), decide (type &&& EventType.Write ≠ 0), none, callback⟩
  | .addTimerEvent period callback answers =>
    if answers.eventAdd < 0 then none else some ⟨-1, false, false, some period.toUInt64.toNat, callback⟩
  | .fire _ => none

end LoopStep

def Timeval.micros (tv : Timeval) : Nat := tv.tv_sec * 1000000 + tv.tv_usec

/-- What an event of libevent waits for, with a callback. -/
def LibeventEvent.handler {F : Type} (r : LibeventEvent) (callback : F) : Handler F :=
  ⟨r.fd, decide (r.events &&& EV_READ ≠ 0), decide (r.events &&& EV_WRITE ≠ 0), r.timeout.map (·.micros), callback⟩

namespace LoopEvents

variable {F : Type}

/-- What libevent may run: its pending events, each with the callback that `Event::dispatch` finds. -/
def handlers (s : LoopEvents F) : Option (List (Handler F)) :=
  s.libevent.map fun l => (l.events.filter (·.pending)).filterMap fun r =>
    (s.events_.find? (·.object = r.arg)).map fun event => r.handler event.callback_

end LoopEvents

/-! ### Calls on what is there -/

namespace Libevent

/-- An update leaves the other events alone. -/
private theorem update_of_forall_ne {events : List LibeventEvent} {event : Nat} (f : LibeventEvent → LibeventEvent)
    (h : ∀ r ∈ events, r.event ≠ event) : (events.map fun r => if r.event = event then f r else r) = events :=
  (List.map_congr_left fun r hr => if_neg (h r hr)).trans (List.map_id' events)

private theorem filter_update (l : Libevent) (event : Nat) :
    (l.update event (·.del)).events.filter (·.event ≠ event) = l.events.filter (·.event ≠ event) := by
  rw [update]
  induction l.events with
  | nil => rfl
  | cons r rest ih =>
    by_cases hr : r.event = event
    · simpa [hr, LibeventEvent.del] using ih
    · simpa [hr] using ih

private theorem has_update (l : Libevent) (event : Nat) : (l.update event (·.del)).has event = l.has event := by
  rw [has, has, update]
  congr 1
  induction l.events with
  | nil => rfl
  | cons r rest ih =>
    by_cases hr : r.event = event
    · simp [hr, LibeventEvent.del]
    · simpa [hr] using ih

/-- The destructor of an `Event` takes its event and its object away. -/
private theorem replay_destruct {l : Libevent} {event object : Nat} (hevent : l.has event = true)
    (hobject : object ∈ l.objects) (harg : ∀ r ∈ l.events, r.event ≠ event → r.arg ≠ object) :
    machine.replay l [.eventDel (some event), .eventFree (some event), .deleteEvent object] =
      some ⟨l.base, l.objects.filter (· ≠ object), l.events.filter (·.event ≠ event)⟩ := by
  have hdel : machine.step l (.eventDel (some event)) = some (l.update event (·.del)) := if_pos hevent
  have hfree : machine.step (l.update event (·.del)) (.eventFree (some event)) =
      some { l with events := l.events.filter (·.event ≠ event) } := by
    rw [← filter_update]
    exact if_pos ((has_update l event).trans hevent)
  have hdelete : machine.step { l with events := l.events.filter (·.event ≠ event) } (.deleteEvent object) =
      some ⟨l.base, l.objects.filter (· ≠ object), l.events.filter (·.event ≠ event)⟩ := by
    refine if_pos ?_
    simp only [Bool.and_eq_true, decide_eq_true_eq, List.all_eq_true, List.mem_filter]
    refine ⟨hobject, fun r hr => ?_⟩
    simp [harg r hr.1 hr.2]
  rw [Machine.replay, hdel, Option.bind_some, Machine.replay, hfree, Option.bind_some, Machine.replay, hdelete]
  rfl

end Libevent

namespace LoopEvents

variable {F : Type}

private theorem libevent_append {s s' : LoopEvents F} {cs : List LoopCall} (h : s'.calls = s.calls ++ cs) :
    s'.libevent = s.libevent.bind fun l => Libevent.machine.replay l cs := by
  rw [libevent, h, Machine.replay_append]
  rfl

private theorem destructEvent_calls (s : LoopEvents F) (event : LoopEvent F) : (s.destructEvent event).calls =
    s.calls ++ [.eventDel event.event_, .eventFree event.event_, .deleteEvent event.object] := by
  simp [destructEvent, call]

end LoopEvents

/-! ### One table -/

/-- An event that was added, as the loop, libevent and the user have it. -/
structure EventRow (F : Type) where
  object : Nat
  event : Nat
  fd : Int
  events : Nat
  timeout : Option Timeval
  callback : F

namespace EventRow

variable {F : Type}

def loopEvent (row : EventRow F) : LoopEvent F := ⟨row.object, row.callback, some row.event⟩

def libeventEvent (row : EventRow F) : LibeventEvent :=
  ⟨row.event, row.fd, row.events, row.object, true, row.timeout⟩

def handler (row : EventRow F) : Handler F := row.libeventEvent.handler row.callback

def libevent (rows : List (EventRow F)) : Libevent := ⟨true, rows.map (·.object), rows.map (·.libeventEvent)⟩

end EventRow

namespace LoopEvents

variable {F : Type}

/-- The events of the loop and of libevent are those of the table. -/
structure Tracks (s : LoopEvents F) (rows : List (EventRow F)) : Prop where
  events : s.events_ = rows.map (·.loopEvent)
  libevent : s.libevent = some (EventRow.libevent rows)
  named : ∀ row ∈ rows, row.object < s.calls.length ∧ row.event < s.calls.length
  objects : (rows.map (·.object)).Nodup
  libeventEvents : (rows.map (·.event)).Nodup
  persist : ∀ row ∈ rows, row.events &&& EV_PERSIST ≠ 0

private theorem constructed_tracks : (constructed : LoopEvents F).Tracks [] where
  events := rfl
  libevent := rfl
  named := nofun
  objects := List.nodup_nil
  libeventEvents := List.nodup_nil
  persist := nofun

/-- The names that the next event would get are new. -/
private theorem Tracks.new {s : LoopEvents F} {rows : List (EventRow F)} (h : s.Tracks rows) :
    s.calls.length ∉ rows.map (·.object) ∧ s.calls.length + 1 ∉ rows.map (·.event) := by
  constructor
  · intro hmem
    obtain ⟨row, hrow, heq⟩ := List.mem_map.1 hmem
    have hlt := (h.named row hrow).1
    omega
  · intro hmem
    obtain ⟨row, hrow, heq⟩ := List.mem_map.1 hmem
    have hlt := (h.named row hrow).2
    omega

/-- The row of the next event that is added. -/
def newRow (s : LoopEvents F) (fd : Int) (events : Nat) (timeout : Option Timeval) (callback : F) : EventRow F :=
  ⟨s.calls.length, s.calls.length + 1, fd, events, timeout, callback⟩

/-- The table and an event that was created but not added. -/
def withCreated (rows : List (EventRow F)) (row : EventRow F) : Libevent :=
  ⟨true, rows.map (·.object) ++ [row.object],
    rows.map (·.libeventEvent) ++ [⟨row.event, row.fd, row.events, row.object, false, none⟩]⟩

section Created

variable {rows : List (EventRow F)} {row : EventRow F}

private theorem withCreated_has : (withCreated rows row).has row.event = true := by
  simp [withCreated, Libevent.has]

private theorem ne_of_not_mem_events (h : row.event ∉ rows.map (·.event)) :
    ∀ r ∈ rows.map (·.libeventEvent), r.event ≠ row.event := by
  intro r hr heq
  obtain ⟨row', hrow, rfl⟩ := List.mem_map.1 hr
  exact h (List.mem_map.2 ⟨row', hrow, heq⟩)

private theorem withCreated_add (row : EventRow F) (h : row.event ∉ rows.map (·.event)) :
    (withCreated rows row).update row.event (·.add row.timeout) = EventRow.libevent (rows ++ [row]) := by
  simp only [withCreated, Libevent.update, List.map_append, Libevent.update_of_forall_ne _ (ne_of_not_mem_events h)]
  simp [EventRow.libevent, LibeventEvent.add, EventRow.libeventEvent]

/-- What was created can be taken away again. -/
private theorem withCreated_destruct (row : EventRow F) (hobject : row.object ∉ rows.map (·.object))
    (hevent : row.event ∉ rows.map (·.event)) :
    Libevent.machine.replay (withCreated rows row)
      [.eventDel (some row.event), .eventFree (some row.event), .deleteEvent row.object] =
        some (EventRow.libevent rows) := by
  have hobjects : (rows.map (·.object)).filter (· ≠ row.object) = rows.map (·.object) := by
    refine List.filter_eq_self.2 fun object hmem => ?_
    have hne : object ≠ row.object := fun heq => hobject (heq ▸ hmem)
    simpa using hne
  have hevents : (rows.map (·.libeventEvent)).filter (·.event ≠ row.event) = rows.map (·.libeventEvent) := by
    refine List.filter_eq_self.2 fun r hr => ?_
    simpa using ne_of_not_mem_events hevent r hr
  rw [Libevent.replay_destruct withCreated_has (by simp [withCreated])]
  · simp only [withCreated, List.filter_append, hobjects, hevents]
    simp [EventRow.libevent]
  · intro r hr hne
    rcases List.mem_append.1 hr with hold | hnew
    · obtain ⟨row', hrow, rfl⟩ := List.mem_map.1 hold
      exact fun heq => hobject (List.mem_map.2 ⟨row', hrow, heq⟩)
    · rw [List.mem_singleton] at hnew
      exact absurd (congrArg (·.event) hnew) hne

end Created

section AddEvent

variable {s : LoopEvents F} {rows : List (EventRow F)} {fd : Int} {events : Nat} {timeout : Option Timeval}
  {callback : F} {answers : AddAnswers} {createFailed addFailed : String}

/-- The calls of an addition: the event cannot be created, or not added, or it is there in the end. -/
private theorem addEvent_cases {s s' : LoopEvents F}
    (hs : s' = s.addEvent fd events timeout callback answers createFailed addFailed) :
    (answers.eventNew = false ∧ s'.events_ = s.events_ ∧ s'.calls = s.calls ++
      ([.newEvent s.calls.length, .eventNew fd events s.calls.length none, .eprint createFailed] ++
        [.eventDel none, .eventFree none, .deleteEvent s.calls.length])) ∨
    (answers.eventNew = true ∧ answers.eventAdd < 0 ∧ s'.events_ = s.events_ ∧ s'.calls = s.calls ++
      ([.newEvent s.calls.length, .eventNew fd events s.calls.length (some (s.calls.length + 1))] ++
        ([.eventAdd (s.calls.length + 1) timeout answers.eventAdd, .eprint addFailed] ++
          [.eventDel (some (s.calls.length + 1)), .eventFree (some (s.calls.length + 1)),
            .deleteEvent s.calls.length]))) ∨
    (answers.eventNew = true ∧ 0 ≤ answers.eventAdd ∧
      s'.events_ = s.events_ ++ [(s.newRow fd events timeout callback).loopEvent] ∧ s'.calls = s.calls ++
      ([.newEvent s.calls.length, .eventNew fd events s.calls.length (some (s.calls.length + 1))] ++
        [.eventAdd (s.calls.length + 1) timeout answers.eventAdd])) := by
  cases hnew : answers.eventNew with
  | false =>
    left
    simp [hs, addEvent, hnew, destructEvent, call]
  | true =>
    by_cases hret : answers.eventAdd < 0
    · right
      left
      simp [hs, addEvent, hnew, hret, destructEvent, call]
    · right
      right
      simp [hs, addEvent, hnew, hret, call, newRow, EventRow.loopEvent, Int.not_lt.1 hret]

/-- An event that is created is in the table if it is added, and leaves no trace otherwise. -/
private theorem Tracks.addEvent (h : s.Tracks rows) (hpersist : events &&& EV_PERSIST ≠ 0)
    (hcreate : answers.eventNew = true) :
    (s.addEvent fd events timeout callback answers createFailed addFailed).Tracks
      (if answers.eventAdd < 0 then rows else rows ++ [s.newRow fd events timeout callback]) := by
  obtain ⟨hobject, hevent⟩ := h.new
  have hcreated : Libevent.machine.replay (EventRow.libevent rows) [.newEvent s.calls.length,
      .eventNew fd events s.calls.length (some (s.calls.length + 1))] =
        some (withCreated rows (s.newRow fd events timeout callback)) := rfl
  have hadd : Libevent.machine.step (withCreated rows (s.newRow fd events timeout callback))
      (.eventAdd (s.calls.length + 1) timeout answers.eventAdd) = some (if 0 ≤ answers.eventAdd then
        EventRow.libevent (rows ++ [s.newRow fd events timeout callback]) else
          withCreated rows (s.newRow fd events timeout callback)) := by
    rw [← withCreated_add (s.newRow fd events timeout callback) hevent]
    exact if_pos withCreated_has
  rcases addEvent_cases (s := s) rfl with ⟨hnew, -⟩ | ⟨-, hret, hevents, hcalls⟩ | ⟨-, hret, hevents, hcalls⟩
  · rw [hcreate] at hnew
    cases hnew
  · rw [if_neg (by omega)] at hadd
    rw [if_pos hret]
    refine ⟨hevents.trans h.events, ?_, fun row hrow => ?_, h.objects, h.libeventEvents, h.persist⟩
    · rw [libevent_append hcalls, h.libevent, Option.bind_some, Machine.replay_append, hcreated, Option.bind_some,
        Machine.replay_append, Machine.replay, hadd]
      exact withCreated_destruct (s.newRow fd events timeout callback) hobject hevent
    · have hnamed := h.named row hrow
      simp only [hcalls, List.length_append]
      omega
  · rw [if_pos hret] at hadd
    rw [if_neg (by omega)]
    refine ⟨?_, ?_, ?_, ?_, ?_, ?_⟩
    · rw [hevents, h.events, List.map_append]
      rfl
    · rw [libevent_append hcalls, h.libevent, Option.bind_some, Machine.replay_append, hcreated, Option.bind_some,
        Machine.replay, hadd]
      rfl
    · intro row hrow
      simp only [hcalls, List.length_append, List.length_cons, List.length_nil]
      rcases List.mem_append.1 hrow with hold | hnew
      · have hnamed := h.named row hold
        omega
      · obtain rfl := List.mem_singleton.1 hnew
        dsimp only [newRow]
        omega
    · rw [List.map_append]
      exact List.Nodup.append h.objects (List.nodup_singleton _) (List.disjoint_singleton.2 hobject)
    · rw [List.map_append]
      exact List.Nodup.append h.libeventEvents (List.nodup_singleton _) (List.disjoint_singleton.2 hevent)
    · intro row hrow
      rcases List.mem_append.1 hrow with hold | hnew
      · exact h.persist row hold
      · obtain rfl := List.mem_singleton.1 hnew
        exact hpersist

/-- The destructor hands the null pointer of an event that could not be created to libevent. -/
private theorem addEvent_null (hcreate : answers.eventNew = false) :
    .eventDel none ∈ (s.addEvent fd events timeout callback answers createFailed addFailed).calls := by
  rcases addEvent_cases (s := s) rfl with ⟨-, -, hcalls⟩ | ⟨hnew, -⟩ | ⟨hnew, -⟩
  · rw [hcalls]
    simp
  · rw [hcreate] at hnew
    cases hnew
  · rw [hcreate] at hnew
    cases hnew

private theorem addEvent_calls :
    s.calls <+: (s.addEvent fd events timeout callback answers createFailed addFailed).calls := by
  rcases addEvent_cases (s := s) rfl with ⟨-, -, hcalls⟩ | ⟨-, -, -, hcalls⟩ | ⟨-, -, -, hcalls⟩
  all_goals exact ⟨_, hcalls.symm⟩

end AddEvent

/-! ### Firing -/

/-- `Event::dispatch` finds the object that the event was created with. -/
private theorem find_object {rows : List (EventRow F)} (hobjects : (rows.map (·.object)).Nodup) {row : EventRow F}
    (hrow : row ∈ rows) : (rows.map (·.loopEvent)).find? (·.object = row.object) = some row.loopEvent := by
  have hkeys : ((rows.map (·.loopEvent)).map (·.object)).Nodup := by
    rw [List.map_map]
    exact hobjects
  exact Search.find?_of_key hkeys (List.mem_map_of_mem hrow) fun _ _ => decide_eq_true_iff

/-- A persistent event is as before when it has fired. -/
private theorem libevent_fired {rows : List (EventRow F)} (hpersist : ∀ row ∈ rows, row.events &&& EV_PERSIST ≠ 0)
    (event : Nat) : (EventRow.libevent rows).update event (·.fired) = EventRow.libevent rows := by
  have hevents : ((rows.map (·.libeventEvent)).map fun r => if r.event = event then r.fired else r) =
      rows.map (·.libeventEvent) := by
    rw [List.map_map]
    refine List.map_congr_left fun row hrow => ?_
    have hfired : row.libeventEvent.fired = row.libeventEvent := if_pos (hpersist row hrow)
    rw [Function.comp_apply, hfired, ite_self]
  rw [Libevent.update, EventRow.libevent, hevents]

private theorem Tracks.dispatch {s : LoopEvents F} {rows : List (EventRow F)} (h : s.Tracks rows) {row : EventRow F}
    (hrow : row ∈ rows) : (s.dispatch row.event row.object).Tracks rows ∧
      (s.dispatch row.event row.object).invoked = s.invoked ++ [row.callback] := by
  have hcalls : (s.dispatch row.event row.object).calls = s.calls ++ [.dispatch row.event row.object] := rfl
  have hstep : Libevent.machine.step (EventRow.libevent rows) (.dispatch row.event row.object) =
      some (EventRow.libevent rows) := by
    refine (if_pos ?_).trans (congrArg some (libevent_fired h.persist row.event))
    have hany : ∃ r ∈ rows, r.event = row.event ∧ r.object = row.object := ⟨row, hrow, rfl, rfl⟩
    simpa [EventRow.libevent, EventRow.libeventEvent, hany] using ⟨row, hrow, rfl⟩
  refine ⟨⟨h.events, ?_, fun row hrow => ?_, h.objects, h.libeventEvents, h.persist⟩, ?_⟩
  · rw [libevent_append hcalls, h.libevent, Option.bind_some, Machine.replay, hstep]
    rfl
  · have hnamed := h.named row hrow
    simp only [hcalls, List.length_append]
    omega
  · rw [LoopEvents.dispatch, h.events, find_object h.objects hrow]
    rfl

/-- What fires is in the table. -/
private theorem Tracks.fire_cases {s s' : LoopEvents F} {rows : List (EventRow F)} (h : s.Tracks rows) {event : Nat}
    (hs : s.step (.fire event) = some s') : ∃ row ∈ rows, s' = s.dispatch row.event row.object := by
  rw [step, h.libevent, Option.bind_some] at hs
  obtain ⟨r, hfind, rfl⟩ := Option.map_eq_some_iff.1 hs
  obtain ⟨row, hrow, rfl⟩ := List.mem_map.1 (List.mem_of_find?_eq_some hfind)
  have hevent : row.event = event := by
    have hfound := List.find?_some hfind
    simp only [Bool.and_eq_true, decide_eq_true_eq] at hfound
    exact hfound.1
  exact ⟨row, hrow, by rw [hevent]; rfl⟩

/-- Every event of the table can fire. -/
private theorem Tracks.exists_fire {s : LoopEvents F} {rows : List (EventRow F)} (h : s.Tracks rows) {row : EventRow F}
    (hrow : row ∈ rows) : s.step (.fire row.event) = some (s.dispatch row.event row.object) := by
  have hkeys : ((rows.map (·.libeventEvent)).map (·.event)).Nodup := by
    rw [List.map_map]
    exact h.libeventEvents
  have hfind : (rows.map (·.libeventEvent)).find? (fun r => r.event = row.event && r.pending) =
      some row.libeventEvent := by
    refine Search.find?_of_key hkeys (List.mem_map_of_mem hrow) fun r hr => ?_
    obtain ⟨row', -, rfl⟩ := List.mem_map.1 hr
    rw [Bool.and_eq_true, decide_eq_true_iff]
    exact and_iff_left rfl
  rw [step, h.libevent, Option.bind_some]
  exact Option.map_eq_some_iff.2 ⟨_, hfind, rfl⟩

/-! ### Handlers -/

private theorem fdEvents_handler (type : Nat) : fdEvents type &&& EV_PERSIST ≠ 0 ∧
    (fdEvents type &&& EV_READ ≠ 0 ↔ type &&& EventType.Read ≠ 0) ∧
      (fdEvents type &&& EV_WRITE ≠ 0 ↔ type &&& EventType.Write ≠ 0) := by
  rw [fdEvents]
  split <;> split <;> simp_all [EV_READ, EV_WRITE, EV_PERSIST]

private theorem timerTimeval_micros (period : Int64) : (timerTimeval period).micros = period.toUInt64.toNat := by
  rw [timerTimeval, Timeval.micros, UInt64.toNat_div, UInt64.toNat_mod]
  exact Nat.div_add_mod' _ _

/-- libevent may run the handlers of the table. -/
private theorem Tracks.handlers {s : LoopEvents F} {rows : List (EventRow F)} (h : s.Tracks rows) :
    s.handlers = some (rows.map (·.handler)) := by
  have hall : ((rows.map (·.libeventEvent)).filter (·.pending)) = rows.map (·.libeventEvent) := by
    refine List.filter_eq_self.2 fun r hr => ?_
    obtain ⟨row, -, rfl⟩ := List.mem_map.1 hr
    rfl
  have hfound : (rows.map (·.libeventEvent)).filterMap (fun r =>
      (s.events_.find? (·.object = r.arg)).map fun event => r.handler event.callback_) = rows.map (·.handler) := by
    rw [List.filterMap_map, ← List.filterMap_eq_map]
    refine List.filterMap_congr fun row hrow => ?_
    have hfind : s.events_.find? (·.object = row.libeventEvent.arg) = some row.loopEvent := by
      rw [h.events]
      exact find_object h.objects hrow
    simp only [Function.comp_apply, hfind]
    rfl
  rw [LoopEvents.handlers, h.libevent, Option.map_some, EventRow.libevent, hall, hfound]

/-- A step of a loop whose events can be created installs the handler that was asked for. -/
private theorem Tracks.step {s s' : LoopEvents F} {rows : List (EventRow F)} {e : LoopStep F} (h : s.Tracks rows)
    (hs : s.step e = some s') (hc : e.Creates) :
    ∃ rows', s'.Tracks rows' ∧ rows'.map (·.handler) = rows.map (·.handler) ++ e.handler.toList := by
  cases e with
  | addFdEvent fd type callback answers =>
    obtain rfl := Option.some.inj hs
    obtain ⟨hpersist, hread, hwrite⟩ := fdEvents_handler type
    refine ⟨_, h.addEvent hpersist (hc answers rfl), ?_⟩
    rw [LoopStep.handler]
    split
    · rw [Option.toList_none, List.append_nil]
    · rw [List.map_append]
      simp [newRow, EventRow.handler, EventRow.libeventEvent, LibeventEvent.handler, hread, hwrite]
  | addTimerEvent period callback answers =>
    obtain rfl := Option.some.inj hs
    refine ⟨_, h.addEvent (by decide) (hc answers rfl), ?_⟩
    rw [LoopStep.handler]
    split
    · rw [Option.toList_none, List.append_nil]
    · rw [List.map_append]
      simp [newRow, EventRow.handler, EventRow.libeventEvent, LibeventEvent.handler, timerTimeval_micros, EV_PERSIST,
        EV_READ, EV_WRITE]
  | fire event =>
    obtain ⟨row, hrow, rfl⟩ := h.fire_cases hs
    exact ⟨rows, (h.dispatch hrow).1, (List.append_nil _).symm⟩

private theorem Tracks.run {s t : LoopEvents F} {rows : List (EventRow F)} {es : List (LoopStep F)} (h : s.Tracks rows)
    (hr : (machine F).Run s es t) (hc : ∀ e ∈ es, e.Creates) :
    ∃ rows', t.Tracks rows' ∧ rows'.map (·.handler) = rows.map (·.handler) ++ es.filterMap (·.handler) := by
  induction hr generalizing rows with
  | nil => exact ⟨rows, h, (List.append_nil _).symm⟩
  | @cons s s' t e es hs _ ih =>
    rw [List.forall_mem_cons] at hc
    obtain ⟨rows', h', hrows'⟩ := h.step hs hc.1
    obtain ⟨rows'', h'', hrows''⟩ := ih h' hc.2
    refine ⟨rows'', h'', ?_⟩
    rw [hrows'', hrows', List.append_assoc, List.filterMap_cons]
    cases e.handler <;> rfl

/-- In every state that a loop gets into, what libevent may run are the handlers that were added, in this order: what
fires is one of them, and each of them can fire, any number of times. -/
theorem handlers_eq {s t : LoopEvents F} {es : List (LoopStep F)} (hs : (machine F).init s)
    (hr : (machine F).Run s es t) (hc : ∀ e ∈ es, e.Creates) :
    t.handlers = some (es.filterMap (·.handler)) ∧
      (∀ event t', (machine F).step t (.fire event) = some t' →
        ∃ handler ∈ es.filterMap (·.handler), t'.invoked = t.invoked ++ [handler.callback]) ∧
      ∀ handler ∈ es.filterMap (·.handler), ∃ event t', (machine F).step t (.fire event) = some t' ∧
        t'.invoked = t.invoked ++ [handler.callback] := by
  obtain rfl : s = constructed := hs
  obtain ⟨rows, h, hrows⟩ := constructed_tracks.run hr hc
  rw [List.map_nil, List.nil_append] at hrows
  rw [← hrows]
  refine ⟨h.handlers, fun event t' hfire => ?_, fun handler hmem => ?_⟩
  · obtain ⟨row, hrow, rfl⟩ := h.fire_cases hfire
    exact ⟨row.handler, List.mem_map_of_mem hrow, (h.dispatch hrow).2⟩
  · obtain ⟨row, hrow, rfl⟩ := List.mem_map.1 hmem
    exact ⟨row.event, _, h.exists_fire hrow, (h.dispatch hrow).2⟩

/-- The events of a display and of a window, some of them firing, and one that libevent does not take. -/
def displayAndWindow : List (LoopStep String) :=
  [.addFdEvent 7 EventType.Read "drmEvent" ⟨true, 0⟩, .addTimerEvent 10000 "processSDLEvents" ⟨true, 0⟩, .fire 5,
    .fire 2, .addFdEvent 9 EventType.Write "none" ⟨true, -1⟩, .fire 5]

private theorem displayAndWindow_creates : ∀ e ∈ displayAndWindow, e.Creates := by
  simp [displayAndWindow, LoopStep.Creates, LoopStep.answers]

theorem handlers_eq_display : ∃ t, (machine String).replay constructed displayAndWindow = some t ∧
    t.invoked = ["processSDLEvents", "drmEvent", "processSDLEvents"] ∧
      t.handlers = some [⟨7, true, false, none, "drmEvent"⟩, ⟨-1, false, false, some 10000, "processSDLEvents"⟩] := by
  have hrun : ((machine String).replay constructed displayAndWindow).map (·.invoked) =
      some ["processSDLEvents", "drmEvent", "processSDLEvents"] := rfl
  obtain ⟨t, ht, hinvoked⟩ := Option.map_eq_some_iff.1 hrun
  refine ⟨t, ht, hinvoked, ?_⟩
  exact (handlers_eq rfl (Machine.run_of_replay ht) displayAndWindow_creates).1

/-! ### The end of the loop -/

private theorem libevent_of_null {s : LoopEvents F} (h : .eventDel none ∈ s.calls) : s.libevent = none := by
  obtain ⟨before, after, hcalls⟩ := List.append_of_mem h
  rw [libevent, hcalls, Machine.replay_append, Option.bind_eq_none_iff]
  exact fun _ _ => rfl

private theorem calls_of_step {s s' : LoopEvents F} {e : LoopStep F} (hs : s.step e = some s') :
    s.calls <+: s'.calls := by
  cases e with
  | addFdEvent fd type callback answers =>
    obtain rfl := Option.some.inj hs
    exact addEvent_calls
  | addTimerEvent period callback answers =>
    obtain rfl := Option.some.inj hs
    exact addEvent_calls
  | fire event =>
    obtain ⟨l, -, hfound⟩ := Option.bind_eq_some_iff.1 hs
    obtain ⟨r, -, rfl⟩ := Option.map_eq_some_iff.1 hfound
    exact List.prefix_append _ _

private theorem destruct_calls (s : LoopEvents F) : s.calls <+: s.destruct.calls := by
  have hfold : ∀ (events : List (LoopEvent F)) (s : LoopEvents F),
      s.calls <+: (events.foldl destructEvent s).calls := by
    intro events
    induction events with
    | nil => exact fun s => List.prefix_rfl
    | cons event rest ih =>
      intro s
      exact List.IsPrefix.trans ⟨_, (destructEvent_calls s event).symm⟩ (ih (s.destructEvent event))
  refine (hfold s.events_ s).trans ⟨[.eventBaseFree, .libeventGlobalShutdown], ?_⟩
  simp [LoopEvents.destruct, clearEvents, call]

/-- `events_.clear()` takes the events of the table away, one after the other. -/
private theorem clear_libevent {s : LoopEvents F} {rows : List (EventRow F)}
    (h : s.libevent = some (EventRow.libevent rows))
    (hobjects : (rows.map (·.object)).Nodup) (hevents : (rows.map (·.event)).Nodup) :
    ((rows.map (·.loopEvent)).foldl destructEvent s).libevent = some ⟨true, [], []⟩ := by
  induction rows generalizing s with
  | nil => exact h
  | cons row rest ih =>
    rw [List.map_cons, List.nodup_cons] at hobjects hevents
    rw [List.map_cons, List.foldl_cons]
    refine ih ?_ hobjects.2 hevents.2
    have hkept : ((row :: rest).map (·.object)).filter (· ≠ row.object) = rest.map (·.object) := by
      rw [List.map_cons, List.filter_cons_of_neg (by simp), List.filter_eq_self]
      intro object hmem
      have hne : object ≠ row.object := fun heq => hobjects.1 (heq ▸ hmem)
      simpa using hne
    have hleft : ((row :: rest).map (·.libeventEvent)).filter (·.event ≠ row.event) = rest.map (·.libeventEvent) := by
      rw [List.map_cons, List.filter_cons_of_neg (by simp [EventRow.libeventEvent]), List.filter_eq_self]
      intro r hr
      simpa using ne_of_not_mem_events hevents.1 r hr
    rw [libevent_append (destructEvent_calls s row.loopEvent), h, Option.bind_some]
    refine (@Libevent.replay_destruct _ row.event _ ?_ ?_ ?_).trans ?_
    · simp [EventRow.libevent, Libevent.has, EventRow.libeventEvent]
    · exact List.mem_cons_self
    · intro r hr hne
      rcases List.mem_cons.1 hr with rfl | hrest
      · exact absurd rfl hne
      · obtain ⟨row', hrow, rfl⟩ := List.mem_map.1 hrest
        exact fun heq => hobjects.1 (List.mem_map.2 ⟨row', hrow, heq⟩)
    · exact congrArg some (congrArg₂ (Libevent.mk true) hkept hleft)

private theorem Tracks.destruct {s : LoopEvents F} {rows : List (EventRow F)} (h : s.Tracks rows) :
    s.destruct.libevent = some Libevent.idle := by
  have hclear : s.clearEvents.libevent = some ⟨true, [], []⟩ := by
    have hfold := clear_libevent h.libevent h.objects h.libeventEvents
    rw [← h.events] at hfold
    exact hfold
  have hcalls : s.destruct.calls = s.clearEvents.calls ++ [.eventBaseFree, .libeventGlobalShutdown] := by
    simp [LoopEvents.destruct, call]
  rw [libevent_append hcalls, hclear]
  rfl

private theorem Tracks.step_or {s s' : LoopEvents F} {e : LoopStep F} (h : ∃ rows, s.Tracks rows)
    (hs : s.step e = some s') :
    (e.Creates ∧ ∃ rows, s'.Tracks rows) ∨ (¬e.Creates ∧ .eventDel none ∈ s'.calls) := by
  obtain ⟨rows, h⟩ := h
  by_cases hc : e.Creates
  · obtain ⟨rows', h', -⟩ := h.step hs hc
    exact Or.inl ⟨hc, rows', h'⟩
  · refine Or.inr ⟨hc, ?_⟩
    simp only [LoopStep.Creates, not_forall, Bool.not_eq_true] at hc
    obtain ⟨answers, hmem, hnew⟩ := hc
    cases e with
    | addFdEvent fd type callback answers' =>
      obtain rfl : answers' = answers := Option.some.inj hmem
      obtain rfl := Option.some.inj hs
      exact addEvent_null hnew
    | addTimerEvent period callback answers' =>
      obtain rfl : answers' = answers := Option.some.inj hmem
      obtain rfl := Option.some.inj hs
      exact addEvent_null hnew
    | fire event => cases hmem

/-- Over the life of a loop for which `event_base_new` succeeds, whatever is added and whatever fires: every call is
right, no callback is looked for in an object that is gone, and each event is deleted and freed once and before the
base, if and only if libevent could create every event.  Otherwise a null pointer is passed to `event_del`. -/
theorem events_freed_iff {s t : LoopEvents F} {es : List (LoopStep F)} (hs : (machine F).init s)
    (hr : (machine F).Run s es t) : (t.destruct.libevent = some Libevent.idle ↔ ∀ e ∈ es, e.Creates) ∧
      (t.destruct.libevent = none ↔ ∃ e ∈ es, ¬e.Creates) ∧
      (.eventDel none ∈ t.destruct.calls ↔ ∃ e ∈ es, ¬e.Creates) := by
  obtain rfl : s = constructed := hs
  have hiff : (machine F).AllSteps (fun _ e => e.Creates) constructed es ↔ ∀ e ∈ es, e.Creates :=
    hr.allSteps_iff_forall
  rcases hr.allSteps_or (fun _ _ _ => Tracks.step_or) (fun _ _ _ h hs => (calls_of_step hs).subset h)
    ⟨[], constructed_tracks⟩ with ⟨hall, rows, h⟩ | ⟨hnot, h⟩
  · rw [hiff] at hall
    have hnone : ¬∃ e ∈ es, ¬e.Creates := by
      rintro ⟨e, he, hc⟩
      exact hc (hall e he)
    have hfreed := h.destruct
    refine ⟨iff_of_true hfreed hall, iff_of_false ?_ hnone, iff_of_false ?_ hnone⟩
    · rw [hfreed]
      exact nofun
    · intro hnull
      rw [libevent_of_null hnull] at hfreed
      cases hfreed
  · rw [hiff] at hnot
    have hnull : .eventDel none ∈ t.destruct.calls := (destruct_calls t).subset h
    rw [libevent_of_null hnull]
    have hsome : ∃ e ∈ es, ¬e.Creates := by simpa using hnot
    exact ⟨iff_of_false nofun hnot, iff_of_true rfl hsome, iff_of_true hnull hsome⟩

theorem events_freed_iff_display : ∃ t, (machine String).replay constructed displayAndWindow = some t ∧
    t.destruct.libevent = some Libevent.idle := by
  have hrun : ((machine String).replay constructed displayAndWindow).isSome := rfl
  obtain ⟨t, ht⟩ := Option.isSome_iff_exists.1 hrun
  exact ⟨t, ht, (events_freed_iff rfl (Machine.run_of_replay ht)).1.2 displayAndWindow_creates⟩

end LoopEvents

end Twincam
