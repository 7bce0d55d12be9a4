import EventEngine.Proofs.Clocks.Callbacks
import EventEngine.Proofs.Operations

/-!
# Worlds with a past

What has gone before leaves traces in a world: handlers go on counting where they stood, clocks may
still know of alarms that nobody waits for, and there is more history. A past holds such traces, and
a world can be given a past. Here is what becomes of the parts of a world by that.
-/
namespace EventEngine

variable {π : Type}

def Metrics.plus (m n : Metrics) : Metrics where
  enqueued := m.enqueued + n.enqueued
  enqueuedOob := m.enqueuedOob + n.enqueuedOob
  dispatched := m.dispatched + n.dispatched
  timeouts := m.timeouts + n.timeouts
  cleared := m.cleared + n.cleared
  starts := m.starts + n.starts
  stops := m.stops + n.stops
  dispatchMicros := m.dispatchMicros + n.dispatchMicros

/-- What a handler's earlier life has left in its counters. -/
structure Residue where
  exits : Nat := 0
  issued : Nat := 0
  metrics : Metrics := {}

/-- What has gone before: what it has left in the counters of each handler, the alarms on each clock
that were then handlers' alarms, and what happened. -/
structure Past (π : Type) where
  residue : HandlerId → Residue
  owner : ClockId → AlarmId → Option HandlerId
  history : List (Occurrence π)

namespace Past

variable (p : Past π) (h : HandlerId)

/-- Records are numbered on. -/
def record (r : Record π) : Record π := ⟨(p.residue h).issued + r.serial, r.body⟩

/-- Exits are counted on. -/
def pause : Pause → Pause
  | .blocked => .blocked
  | .exit h exits destroys => .exit h ((p.residue h).exits + exits) destroys

def worker : Worker π → Worker π
  | .idle => .idle
  | .holding r => .holding (p.record h r)
  | .dispatching r since script pause =>
    .dispatching (p.record h r) since script (pause.map p.pause)

def queue (q : Queue (Record π)) : Queue (Record π) :=
  { q with events := q.events.map (p.record h) }

def handler (x : Handler π) : Handler π :=
  { x with
    queue := p.queue h x.queue
    worker := x.worker.map (p.worker h)
    exits := (p.residue h).exits + x.exits
    metrics := (p.residue h).metrics.plus x.metrics
    issued := (p.residue h).issued + x.issued }

def occurrence : Occurrence π → Occurrence π
  | .enqueued h place r => .enqueued h place (p.record h r)
  | .began h r => .began h (p.record h r)
  | .finished h r => .finished h (p.record h r)
  | .panicked h r => .panicked h (p.record h r)
  | .cleared h rs => .cleared h (rs.map (p.record h))
  | o => o

/-- The owner of an alarm, which may be one of the past. -/
def callback (c : ClockId) (id : AlarmId) (owner : AlarmOwner) : AlarmOwner :=
  ((p.owner c id).map .handler).getD owner

def world (w : World π) : World π where
  now := w.now
  wallStart := w.wallStart
  clocks := w.clocks.mapIdx fun c k => k.map (p.callback c)
  locks := w.locks
  handlers := w.handlers.mapIdx p.handler
  history := w.history.map p.occurrence ++ p.history

/-- How something went, counting on exits. -/
def progress : Progress → Progress
  | .waits pause => .waits (p.pause pause)
  | progress => progress

/-- An operation, counting on exits. -/
def operation : Operation π → Operation π
  | .conclude pause => .conclude (p.pause pause)
  | op => op

end Past

/-! ## Handlers with a past -/

section Handlers

variable (p : Past π) (h : HandlerId) (x : Handler π)

theorem Past.isRunning_handler : (p.handler h x).isRunning = x.isRunning := by
  simp [handler, Handler.isRunning]

theorem Past.pending_handler : (p.handler h x).pending = x.pending := by
  simp [handler, queue, Handler.pending, Queue.length]

theorem Past.isEmpty_queue (q : Queue (Record π)) : (p.queue h q).isEmpty = q.isEmpty := by
  simp [queue, Queue.isEmpty]

theorem Past.text_handler : (p.handler h x).text = x.text := by
  have config : (p.handler h x).config = x.config := rfl
  have types : (p.handler h x).types = x.types := rfl
  unfold Handler.text
  rw [config, types, pending_handler, isRunning_handler]

theorem Past.enqueue_handler (place : Place) (body : RecordBody π) :
    (p.handler h x).enqueue place body = p.handler h (x.enqueue place body) := by
  cases place <;>
    simp [handler, queue, record, Handler.enqueue, Handler.nextRecord, Queue.enqueueTail,
      Queue.enqueueHead, Metrics.plus, Metrics.recordEnqueued, Metrics.recordEnqueuedOob,
      UInt64.add_assoc, Nat.add_assoc]

theorem Past.clear_handler : (p.handler h x).clear = p.handler h x.clear := by
  simp [handler, queue, Handler.clear, Handler.pending, Queue.length, Queue.clear, Metrics.plus,
    Metrics.recordCleared, UInt64.add_assoc]

theorem Past.launch_handler : (p.handler h x).launch = p.handler h x.launch := by
  simp [handler, worker, Handler.launch, Metrics.plus, Metrics.recordStart, UInt64.add_assoc]

theorem Past.completeStop_handler :
    (p.handler h x).completeStop = p.handler h x.completeStop := by
  have cleared := p.clear_handler h { x with queue := x.queue.resetAbort }
  have same : { p.handler h x with queue := (p.handler h x).queue.resetAbort } =
    p.handler h { x with queue := x.queue.resetAbort } := rfl
  simp only [Handler.completeStop, same, cleared]
  simp [handler, Metrics.plus, Metrics.recordStop, UInt64.add_assoc]

theorem Past.exit_handler : (p.handler h x).exit = p.handler h x.exit := by
  have asked : (p.handler h x).stopRequested = x.stopRequested := rfl
  simp only [Handler.exit, asked, completeStop_handler]
  split <;> simp [handler, Nat.add_assoc]

theorem Past.recordDispatch_handler (body : RecordBody π) (elapsed : Duration) :
    (p.handler h x).recordDispatch body elapsed = p.handler h (x.recordDispatch body elapsed) := by
  cases body <;>
    simp [handler, Handler.recordDispatch, Metrics.plus, Metrics.recordDispatched,
      Metrics.recordTimeout, UInt64.add_assoc]

end Handlers

/-! ## The parts of a world with a past -/

namespace Past

variable (p : Past π) (w : World π) (h : HandlerId) (c : ClockId) (lock : Option LockId)

@[simp] theorem now_world : (p.world w).now = w.now := rfl

@[simp] theorem holder_world : (p.world w).holder = w.holder := rfl

@[simp] theorem canDispatch_world : (p.world w).canDispatch lock = w.canDispatch lock := rfl

@[simp] theorem handlers_world :
    (p.world w).handlers[h]? = (w.handlers[h]?).map (p.handler h) := by
  simp [world]

@[simp] theorem find?_world : (p.world w).find? h = (w.find? h).map (p.handler h) := by
  rw [World.find?, handlers_world, Option.filter_map, World.find?]
  rfl

@[simp] theorem nameOf_world : (p.world w).nameOf h = w.nameOf h := by
  rw [World.nameOf, handlers_world, World.nameOf]
  cases w.handlers[h]? <;> rfl

@[simp] theorem clock_world : (p.world w).clock c = (w.clock c).map (p.callback c) := by
  simp only [World.clock, world, List.getD_eq_getElem?_getD, List.getElem?_mapIdx]
  cases w.clocks[c]? <;> rfl

theorem history_world : (p.world w).history = w.history.map p.occurrence ++ p.history := rfl

/-! ## Changes of a world with a past -/

@[simp] theorem note_world (o : Occurrence π) :
    (p.world w).note (p.occurrence o) = p.world (w.note o) := rfl

theorem modify_world_of {f f' : Handler π → Handler π}
    (same : ∀ x, f' (p.handler h x) = p.handler h (f x)) :
    (p.world w).modify h f' = p.world (w.modify h f) := by
  have handlers : (w.handlers.mapIdx p.handler).modify h f' =
      (w.handlers.modify h f).mapIdx p.handler := by
    refine List.ext_getElem? fun g => ?_
    simp only [List.getElem?_modify, List.getElem?_mapIdx]
    by_cases hg : h = g
    · subst hg
      cases w.handlers[h]? <;> simp [same]
    · cases w.handlers[g]? <;> simp [hg]
  simp [World.modify, world, handlers]

theorem modify_world {f : Handler π → Handler π}
    (same : ∀ x, f (p.handler h x) = p.handler h (f x)) :
    (p.world w).modify h f = p.world (w.modify h f) :=
  p.modify_world_of w h same

@[simp] theorem setHolder_world (who : Option Caller) :
    (p.world w).setHolder lock who = p.world (w.setHolder lock who) := by
  cases lock <;> rfl

@[simp] theorem setClock_world (k : Clock AlarmOwner) (notices : List ClockNotice) :
    (p.world w).setClock c (k.map (p.callback c)) notices =
      p.world (w.setClock c k notices) := by
  have clocks : (w.clocks.mapIdx fun c k => k.map (p.callback c)).set c (k.map (p.callback c)) =
      (w.clocks.set c k).mapIdx fun c k => k.map (p.callback c) := by
    refine List.ext_getElem? fun c' => ?_
    simp only [List.getElem?_set, List.getElem?_mapIdx, List.length_mapIdx]
    by_cases hc : c = c'
    · subst hc
      by_cases there : c < w.clocks.length <;> simp [there]
    · simp [hc]
  have told : p.occurrence ∘ Occurrence.clock c = Occurrence.clock c := rfl
  simp only [World.setClock, world, clocks, List.map_append, List.map_reverse, List.map_map, told,
    List.append_assoc]

end Past
end EventEngine
