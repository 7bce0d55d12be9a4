import EventEngine.Proofs.Operations
import EventEngine.Proofs.Timeouts
import Mathlib.Data.List.Basic

/-!
# Two sides

Handlers, clocks and dispatch locks are divided into two sides. A world is divided if everything
that a handler has, knows and will do belongs to the handler's side. The part of a world on one side
is the world without what belongs to the other; time belongs to both.
-/
namespace EventEngine

variable {π : Type}

/-- Which of two sides each handler, clock and lock belongs to. -/
structure Sides where
  handler : HandlerId → Bool
  clock : ClockId → Bool
  lock : LockId → Bool

/-! ## What belongs to a side -/

def Action.target? : Action π → Option HandlerId
  | .start h | .stop h | .destroy h | .clear h | .signal h _ _ _ _ | .setTimeout h _ _ _
  | .setClock h _ | .isRunning h | .isCurrent h | .pending h | .name h | .describe h | .types h
  | .containsType h _ => some h
  | .advance _ | .threadName | .isLockFree _ | .block | .panic => none

mutual

/-- Whether an action operates on one side only, and so does whatever dispatchers do in consequence.
None of it lets time pass. -/
def Action.within (z : Sides) (s : Bool) : Action π → Bool
  | .signal h _ _ _ script => z.handler h == s && withinAll z s script
  | .setTimeout h _ _ script => z.handler h == s && withinAll z s script
  | .setClock h c => z.handler h == s && z.clock c == s
  | .isLockFree l => z.lock l == s
  | .advance _ => false
  | action => match action.target? with
    | some h => z.handler h == s
    | none => true

def Action.withinAll (z : Sides) (s : Bool) : List (Action π) → Bool
  | [] => true
  | action :: rest => action.within z s && withinAll z s rest

end

open Action (withinAll)

variable {z : Sides} {s : Bool}

theorem Action.withinAll_cons {action : Action π} {rest : List (Action π)} :
    withinAll z s (action :: rest) = true ↔
      action.within z s = true ∧ withinAll z s rest = true := by
  rw [withinAll, Bool.and_eq_true]

theorem Action.handler_of_target {action : Action π} {h : HandlerId}
    (within : action.within z s = true) (target : action.target? = some h) :
    z.handler h = s := by
  cases action <;> cases target <;> simp_all [Action.within, target?]

/-- A pause belongs to the side of the handler whose exit it waits for. -/
def Pause.Within (z : Sides) (s : Bool) : Pause → Prop
  | .blocked => True
  | .exit h _ _ => z.handler h = s

def Worker.Within (z : Sides) (s : Bool) : Worker π → Prop
  | .idle => True
  | .holding record => withinAll z s record.body.script = true
  | .dispatching _ _ script pause =>
    withinAll z s script = true ∧ ∀ p, pause = some p → p.Within z s

/-- Whatever a handler has, and whatever its dispatchers are about to do, belongs to its side. A
handler without a clock has the shared one. -/
structure Handler.Within (z : Sides) (s : Bool) (x : Handler π) : Prop where
  lock : ∀ l, x.lock = some l → z.lock l = s
  clock : z.clock (x.clock.getD sharedClock) = s
  starts : ∀ c ∈ x.starts, z.clock c = s
  queue : ∀ record ∈ x.queue.events, withinAll z s record.body.script = true
  worker : ∀ worker, x.worker = some worker → worker.Within z s
  timeout : ∀ setup, x.timeout = some setup → withinAll z s setup.script = true

/-- Every handler stays on its side, and so do the alarms that clocks know of. -/
structure World.Sided (z : Sides) (w : World π) : Prop where
  handlers {h : HandlerId} {x : Handler π} : w.handlers[h]? = some x → x.Within z (z.handler h)
  clocks {c : ClockId} {id : AlarmId} {h : HandlerId} :
    (w.clock c).Knows id (.handler h) → z.handler h = z.clock c

/-- What an operation is about belongs to one side. -/
def Operation.Within (z : Sides) (s : Bool) : Operation π → Prop
  | .act action => action.within z s = true
  | .conclude pause => pause.Within z s
  | .worker h | .beginStart h | .endStart h _ | .release h => z.handler h = s
  | .timer c _ | .startClock c | .stopClock c | .addAlarm c _ | .addPeriodicAlarm c _
  | .removeAlarm c _ | .panicTimer c _ => z.clock c = s
  | .lock l | .unlock l => z.lock l = s

namespace Handler.Within

variable {x : Handler π}

theorem enqueue (within : x.Within z s) (place : Place) {body : RecordBody π}
    (script : withinAll z s body.script = true) : (x.enqueue place body).Within z s := by
  cases place with
  | tail =>
    refine { within with queue := fun record member => ?_ }
    rcases List.mem_append.mp member with queued | joined
    · exact within.queue record queued
    · rw [List.mem_singleton.mp joined]
      exact script
  | head =>
    refine { within with queue := fun record member => ?_ }
    rcases List.mem_cons.mp member with rfl | queued
    · exact script
    · exact within.queue record queued

theorem setWorker (within : x.Within z s) (worker : Worker π) (at_work : worker.Within z s) :
    ({ x with worker := some worker }).Within z s := by
  refine { within with worker := fun worker' same => ?_ }
  cases same
  exact at_work

theorem clear (within : x.Within z s) : x.clear.Within z s := { within with queue := nofun }

theorem launch (within : x.Within z s) : x.launch.Within z s := by
  refine { within with worker := fun worker same => ?_ }
  cases same
  trivial

theorem exit (within : x.Within z s) : x.exit.Within z s := by
  unfold Handler.exit
  split
  · exact { within with queue := nofun, worker := nofun }
  · exact { within with worker := nofun }

end Handler.Within

/-- A new world is divided if every handler has its lock and its clock on its side. -/
theorem World.Fresh.sided {w : World π} (fresh : w.Fresh)
    (placed : ∀ (h : HandlerId) (x : Handler π), w.handlers[h]? = some x →
      (∀ l, x.lock = some l → z.lock l = z.handler h) ∧
        z.clock (x.clock.getD sharedClock) = z.handler h) : w.Sided z where
  handlers {h x} hx := by
    obtain ⟨lock, clock⟩ := placed h x hx
    obtain ⟨_, _, _, _, _, _, rfl⟩ := fresh.handlers x (List.mem_of_getElem? hx)
    exact ⟨lock, clock, nofun, nofun, nofun, nofun⟩
  clocks {c id h} knows := absurd knows (unknown_of_fresh fresh)

/-! ## Parts of a world -/

section Restrict

variable {α : Type} {side : Nat → Bool} {blank : α} {l : List α} {i : Nat}

/-- The items of a list whose places are on a side, and blanks in the other places. -/
def restrict (side : Nat → Bool) (s : Bool) (blank : α) (l : List α) : List α :=
  l.mapIdx fun i a => if side i = s then a else blank

theorem getElem?_restrict (near : side i = s) : (restrict side s blank l)[i]? = l[i]? := by
  simp [restrict, near]

theorem restrict_set (near : side i = s) (a : α) :
    restrict side s blank (l.set i a) = (restrict side s blank l).set i a := by
  rw [restrict, List.mapIdx_set, if_pos near, restrict]

theorem restrict_modify (near : side i = s) (f : α → α) :
    restrict side s blank (l.modify i f) = (restrict side s blank l).modify i f := by
  refine List.ext_getElem? fun j => ?_
  simp only [restrict, List.getElem?_modify, List.getElem?_mapIdx]
  by_cases same : i = j
  · subst same
    cases l[i]? <;> simp [near]
  · cases l[j]? <;> simp [same]

theorem restrict_modify_away (away : side i = s) (f : α → α) :
    restrict side (!s) blank (l.modify i f) = restrict side (!s) blank l := by
  refine List.ext_getElem? fun j => ?_
  simp only [restrict, List.getElem?_modify, List.getElem?_mapIdx]
  by_cases same : i = j
  · subst same
    cases l[i]? <;> simp [away]
  · cases l[j]? <;> simp [same]

theorem restrict_set_away (away : side i = s) (a : α) :
    restrict side (!s) blank (l.set i a) = restrict side (!s) blank l := by
  rw [List.set_eq_modify, restrict_modify_away away]

end Restrict

/-- The side of an occurrence. -/
def Sides.occurrence (z : Sides) : Occurrence π → Bool
  | .clock c _ => z.clock c
  | .timeoutConfigured h _ | .started h | .spawnFailed h | .spawnPanicked h | .refused h _
  | .enqueued h _ _ | .began h _ | .replied h _ | .finished h _ | .panicked h _
  | .cleared h _ | .abortRequested h
  | .stopRequestedByItself h | .stopped h | .destroyed h => z.handler h

/-- What stands in a part for a handler of the other side. -/
def Handler.absent : Handler π := { config := { name := "" }, handles := 0 }

namespace World

/-- The part of a world on one side. -/
def part (z : Sides) (s : Bool) (w : World π) : World π where
  now := w.now
  wallStart := w.wallStart
  clocks := restrict z.clock s {} w.clocks
  locks := restrict z.lock s none w.locks
  handlers := restrict z.handler s .absent w.handlers
  history := w.history.filter fun o => z.occurrence o = s

section Parts

variable {w : World π} {h : HandlerId} {c : ClockId} {lock : Option LockId}
  {f : Handler π → Handler π} {k : Clock AlarmOwner} {notices : List ClockNotice}
  {o : Occurrence π}

@[simp] theorem now_part : (w.part z s).now = w.now := rfl

theorem handlers_part (near : z.handler h = s) :
    (w.part z s).handlers[h]? = w.handlers[h]? := getElem?_restrict near

theorem find?_part (near : z.handler h = s) : (w.part z s).find? h = w.find? h := by
  rw [find?, handlers_part near, find?]

theorem nameOf_part (near : z.handler h = s) : (w.part z s).nameOf h = w.nameOf h := by
  rw [nameOf, handlers_part near, nameOf]

theorem clock_part (near : z.clock c = s) : (w.part z s).clock c = w.clock c := by
  simp only [clock, part, List.getD_eq_getElem?_getD, getElem?_restrict near]

theorem holder_part {l : LockId} (near : z.lock l = s) :
    (w.part z s).holder l = w.holder l := by
  simp only [holder, part, List.getD_eq_getElem?_getD, getElem?_restrict near]

theorem canDispatch_part (near : ∀ l, lock = some l → z.lock l = s) :
    (w.part z s).canDispatch lock = w.canDispatch lock := by
  cases lock with
  | none => rfl
  | some l => rw [canDispatch, holder_part (near l rfl), canDispatch]

/-! ## Changes on the side of a part -/

theorem note_part (near : z.occurrence o = s) : (w.part z s).note o = (w.note o).part z s := by
  simp [note, part, near]

theorem modify_part (near : z.handler h = s) :
    (w.part z s).modify h f = (w.modify h f).part z s := by
  simp only [modify, part, restrict_modify near]

theorem setClock_part (near : z.clock c = s) :
    (w.part z s).setClock c k notices = (w.setClock c k notices).part z s := by
  have told : (notices.map (Occurrence.clock c)).filter
      (fun o : Occurrence π => z.occurrence o = s) = notices.map (Occurrence.clock c) := by
    simp [List.filter_eq_self, Sides.occurrence, near]
  simp only [setClock, part, restrict_set near, List.filter_append, List.filter_reverse, told]

theorem setHolder_part {who : Option Caller} (near : ∀ l, lock = some l → z.lock l = s) :
    (w.part z s).setHolder lock who = (w.setHolder lock who).part z s := by
  cases lock with
  | none => rfl
  | some l => simp only [setHolder, part, restrict_set (near l rfl)]

/-! ## Changes on the other side -/

theorem part_note (away : z.occurrence o = s) : (w.note o).part z (!s) = w.part z (!s) := by
  have other : z.occurrence o ≠ !s := by simp [away]
  simp [note, part, other]

theorem part_modify (away : z.handler h = s) :
    (w.modify h f).part z (!s) = w.part z (!s) := by
  simp only [modify, part, restrict_modify_away away]

theorem part_setClock (away : z.clock c = s) :
    (w.setClock c k notices).part z (!s) = w.part z (!s) := by
  have told : (notices.map (Occurrence.clock c)).filter
      (fun o : Occurrence π => z.occurrence o = !s) = [] := by
    simp [List.filter_eq_nil_iff, Sides.occurrence, away]
  simp only [setClock, part, restrict_set_away away, List.filter_append, List.filter_reverse, told,
    List.reverse_nil, List.nil_append]

theorem part_setHolder {who : Option Caller} (away : ∀ l, lock = some l → z.lock l = s) :
    (w.setHolder lock who).part z (!s) = w.part z (!s) := by
  cases lock with
  | none => rfl
  | some l => simp only [setHolder, part, restrict_set_away (away l rfl)]

end Parts

end World
end EventEngine
