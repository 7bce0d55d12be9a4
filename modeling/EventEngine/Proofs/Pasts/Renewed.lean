import EventEngine.Proofs.Pasts.Moves

/-!
# A new handler in place of another

A handler without a worker, an abort and an alarm differs from a new one that is handed what is
queued on it: in what it has counted, in the alarms that clocks still know of, and in what has
happened. So the world is the world with a new handler in its place, with a past.
-/
namespace EventEngine

variable {π : Type}

theorem Metrics.plus_new (m : Metrics) : m.plus {} = m := by
  simp [Metrics.plus]

theorem Metrics.new_plus (m : Metrics) : ({} : Metrics).plus m = m := by
  simp [Metrics.plus]

namespace Handler

/-- The least number of a queued record, or the next number that there will be. -/
def firstSerial (x : Handler π) : Nat := (x.queue.events.map Record.serial).foldr min x.issued

/-- A new handler with the configuration, the event types, the dispatch lock, the timeout, the
clock, the pending starts and the references of this one, which is handed what is queued. It counts
from where the residue ends. -/
def anew (left : Residue) (x : Handler π) : Handler π where
  config := x.config
  canSpawn := x.canSpawn
  types := x.types
  lock := x.lock
  queue := { events := x.queue.events.map fun r => ⟨r.serial - left.issued, r.body⟩ }
  exits := x.exits - left.exits
  timeout := x.timeout
  clock := x.clock
  starts := x.starts
  issued := x.issued - left.issued
  handles := x.handles

/-- A handler at rest: it has no worker, no stop or abort is pending, and no alarm is registered. -/
structure AtRest (x : Handler π) : Prop where
  worker : x.worker = none
  aborted : x.queue.aborted = false
  stopRequested : x.stopRequested = false
  timeoutAlarm : x.timeoutAlarm = none
  isDestroyed : x.isDestroyed = false

theorem firstSerial_le_issued (x : Handler π) : x.firstSerial ≤ x.issued := by
  unfold firstSerial
  induction x.queue.events with
  | nil => exact Nat.le_refl _
  | cons r rest ih => exact Nat.le_trans (Nat.min_le_right _ _) ih

theorem firstSerial_le {x : Handler π} {r : Record π} (queued : r ∈ x.queue.events) :
    x.firstSerial ≤ r.serial := by
  unfold firstSerial
  generalize x.queue.events = events at queued
  induction events with
  | nil => cases queued
  | cons r' rest ih =>
    rcases List.mem_cons.mp queued with rfl | queued
    · exact Nat.min_le_left _ _
    · exact Nat.le_trans (Nat.min_le_right _ _) (ih queued)

end Handler

/-- Whether the worker waits for an exit of handler `h`. -/
def Worker.awaits (h : HandlerId) : Worker π → Bool
  | dispatching _ _ _ (some (.exit g _ _)) => g = h
  | _ => false

/-- The owner of an alarm, once handler `h` has none. -/
def AlarmOwner.disown (h : HandlerId) (owner : AlarmOwner) : AlarmOwner :=
  if owner = .handler h then .other else owner

namespace World

/-- Whether some dispatch waits for an exit of handler `h`. -/
def isAwaited (w : World π) (h : HandlerId) : Bool :=
  w.handlers.any fun x => (x.worker.map (Worker.awaits h)).getD false

/-- What `h` has counted without the records that are queued. The exits count as long as a dispatch
waits for one of them. -/
def residue (w : World π) (h : HandlerId) : Residue :=
  match w.handlers[h]? with
  | some x => ⟨if w.isAwaited h then 0 else x.exits, x.firstSerial, x.metrics⟩
  | none => {}

/-- The world with a new handler in place of `h`. The alarms of the old one are nobody's, and
history begins. -/
def renewed (w : World π) (h : HandlerId) : World π :=
  { w with
    clocks := w.clocks.map (Clock.map fun _ => AlarmOwner.disown h)
    handlers := w.handlers.modify h (Handler.anew (w.residue h))
    history := [] }

/-- What the new handler lacks: what the old one has counted and the alarms that clocks know of, and
what has happened. -/
def pastOf (w : World π) (h : HandlerId) : Past π where
  residue g := if g = h then w.residue h else {}
  owner c id := if (w.clock c).Knows id (.handler h) then some h else none
  history := w.history

variable {w : World π} {h g : HandlerId} {x : Handler π}

theorem owner_pastOf {c : ClockId} {id : AlarmId} :
    (w.pastOf h).owner c id = some g ↔ g = h ∧ (w.clock c).Knows id (.handler h) := by
  by_cases known : (w.clock c).Knows id (.handler h)
  · simp [pastOf, known, eq_comm]
  · simp [pastOf, known]

theorem residue_pastOf_self : (w.pastOf h).residue h = w.residue h := if_pos rfl

theorem residue_pastOf_ne (ne : g ≠ h) : (w.pastOf h).residue g = {} := if_neg ne

theorem residue_eq (hx : w.handlers[h]? = some x) :
    w.residue h = ⟨if w.isAwaited h then 0 else x.exits, x.firstSerial, x.metrics⟩ := by
  rw [residue, hx]

/-- If no dispatch waits for its exit and nothing is queued, the new handler is as it is created. -/
theorem anew_residue (hx : w.handlers[h]? = some x) (unawaited : w.isAwaited h = false)
    (empty : x.pending = 0) : x.anew (w.residue h) =
      { config := x.config, canSpawn := x.canSpawn, types := x.types, lock := x.lock,
        timeout := x.timeout, clock := x.clock, starts := x.starts, handles := x.handles } := by
  have events : x.queue.events = [] := List.length_eq_zero_iff.mp empty
  simp [Handler.anew, residue_eq hx, unawaited, Handler.firstSerial, events]

theorem handler_pastOf_self (hx : w.handlers[h]? = some x) (rest : x.AtRest) :
    (w.pastOf h).handler h (x.anew (w.residue h)) = x := by
  have left : (w.pastOf h).residue h = w.residue h := residue_pastOf_self
  have records : ∀ r ∈ x.queue.events,
      (w.pastOf h).record h ⟨r.serial - (w.residue h).issued, r.body⟩ = r := by
    intro r queued
    rw [Past.record, left, residue_eq hx]
    exact congrArg (Record.mk · r.body) (Nat.add_sub_of_le (Handler.firstSerial_le queued))
  have queue : (w.pastOf h).queue h (x.anew (w.residue h)).queue = x.queue := by
    have events : (x.queue.events.map fun r => (⟨r.serial - (w.residue h).issued, r.body⟩ :
        Record π)).map ((w.pastOf h).record h) = x.queue.events := by
      rw [List.map_map]
      exact (List.map_congr_left records).trans (List.map_id _)
    rw [Past.queue, Handler.anew, events, ← rest.aborted]
  have exits : (w.residue h).exits + (x.exits - (w.residue h).exits) = x.exits := by
    refine Nat.add_sub_of_le ?_
    rw [residue_eq hx]
    split
    · exact Nat.zero_le _
    · exact Nat.le_refl _
  have issued : (w.residue h).issued + (x.issued - (w.residue h).issued) = x.issued := by
    rw [residue_eq hx]
    exact Nat.add_sub_of_le x.firstSerial_le_issued
  have metrics : (w.residue h).metrics.plus {} = x.metrics := by
    rw [Metrics.plus_new, residue_eq hx]
  obtain ⟨worker, aborted, stopRequested, timeoutAlarm, -⟩ := rest
  rw [Past.handler, queue, left]
  simp only [Handler.anew, exits, issued, metrics, Option.map_none]
  cases x
  simp only at worker stopRequested timeoutAlarm
  subst worker stopRequested timeoutAlarm
  rfl

theorem record_pastOf_ne (ne : g ≠ h) (r : Record π) : (w.pastOf h).record g r = r := by
  rw [Past.record, residue_pastOf_ne ne]
  exact congrArg (Record.mk · r.body) (Nat.zero_add _)

theorem pause_pastOf {pause : Pause}
    (awaited : ∀ exits destroys, pause = .exit h exits destroys → w.isAwaited h = true) :
    (w.pastOf h).pause pause = pause := by
  cases pause with
  | blocked => rfl
  | exit g exits destroys =>
    have left : ((w.pastOf h).residue g).exits = 0 := by
      by_cases hg : g = h
      · subst hg
        rw [residue_pastOf_self, residue]
        split
        · exact if_pos (awaited exits destroys rfl)
        · rfl
      · rw [residue_pastOf_ne hg]
    rw [Past.pause, left, Nat.zero_add]

theorem worker_pastOf_ne (ne : g ≠ h) {worker : Worker π}
    (awaited : worker.awaits h = true → w.isAwaited h = true) :
    (w.pastOf h).worker g worker = worker := by
  have record := fun r => record_pastOf_ne (w := w) ne r
  rcases worker with _ | r | ⟨r, since, script, _ | pause⟩
  · rfl
  · simp only [Past.worker, record]
  · simp only [Past.worker, record, Option.map_none]
  · have kept : (w.pastOf h).pause pause = pause := by
      refine pause_pastOf fun exits destroys same => awaited ?_
      simp [Worker.awaits, same]
    simp only [Past.worker, record, Option.map_some, kept]

theorem handler_pastOf_ne (ne : g ≠ h) (hx : w.handlers[g]? = some x) :
    (w.pastOf h).handler g x = x := by
  have queue : (w.pastOf h).queue g x.queue = x.queue := by
    have record : (w.pastOf h).record g = id := funext (record_pastOf_ne ne)
    rw [Past.queue, record, List.map_id]
  have worker : x.worker.map ((w.pastOf h).worker g) = x.worker := by
    cases working : x.worker with
    | none => rfl
    | some worker =>
      refine congrArg some (worker_pastOf_ne ne fun awaits => ?_)
      exact List.any_eq_true.mpr ⟨x, List.mem_of_getElem? hx, by simp [working, awaits]⟩
  rw [Past.handler, queue, worker, residue_pastOf_ne ne]
  simp only [Nat.zero_add, Metrics.new_plus]

/-- An alarm that is known gets its owner back. -/
theorem callback_pastOf {c : ClockId} (settled : (w.clock c).Settled) {id : AlarmId}
    {owner : AlarmOwner} (knows : (w.clock c).Knows id owner) :
    (w.pastOf h).callback c id (owner.disown h) = owner := by
  by_cases own : owner = .handler h
  · subst own
    simp [Past.callback, pastOf, knows]
  · have other : ¬ (w.clock c).Knows id (.handler h) := by
      -- an id has one owner
      intro known
      have sole := settled id (.handler h) known
      rcases knows with ⟨a, scheduled, same, callback⟩ | ⟨f, taken, same, callback⟩
      · exact own (callback.symm.trans (sole.1.2 a scheduled same))
      · exact own (callback.symm.trans (sole.2 f taken same))
    simp [Past.callback, pastOf, other, AlarmOwner.disown, own]

/-- A world in which `h` is at rest is the world with a new handler, with what this one lacks. -/
theorem world_pastOf (settled : ∀ c, (w.clock c).Settled) (hx : w.handlers[h]? = some x)
    (rest : x.AtRest) : (w.pastOf h).world (w.renewed h) = w := by
  have clocks : (w.renewed h).clocks.mapIdx (fun c k => k.map ((w.pastOf h).callback c)) =
      w.clocks := by
    refine List.ext_getElem? fun c => ?_
    simp only [renewed, List.getElem?_mapIdx, List.getElem?_map, Option.map_map]
    cases there : w.clocks[c]? with
    | none => rfl
    | some k =>
      have same : w.clock c = k := by simp [clock, there]
      have settled := settled c
      refine congrArg some ?_
      rw [Function.comp_apply, Clock.map_map]
      refine Clock.map_eq_self (fun a member => ?_) fun f member => ?_
      · exact callback_pastOf settled (.inl ⟨a, same ▸ member, rfl, rfl⟩)
      · exact callback_pastOf settled (.inr ⟨f, same ▸ member, rfl, rfl⟩)
  have handlers : (w.renewed h).handlers.mapIdx (w.pastOf h).handler = w.handlers := by
    refine List.ext_getElem? fun g => ?_
    simp only [renewed, List.getElem?_mapIdx, List.getElem?_modify]
    by_cases hg : h = g
    · subst hg
      simp [hx, handler_pastOf_self hx rest]
    · cases hy : w.handlers[g]? with
      | none => rfl
      | some y => simp [hg, handler_pastOf_ne (Ne.symm hg) hy]
  calc (w.pastOf h).world (w.renewed h)
      = { w with
          clocks := (w.renewed h).clocks.mapIdx fun c k => k.map ((w.pastOf h).callback c)
          handlers := (w.renewed h).handlers.mapIdx (w.pastOf h).handler } := rfl
    _ = w := by rw [clocks, handlers]

theorem clock_renewed (c : ClockId) :
    (w.renewed h).clock c = (w.clock c).map fun _ => AlarmOwner.disown h := by
  simp only [clock, renewed, List.getD_eq_getElem?_getD, List.getElem?_map]
  cases w.clocks[c]? <;> rfl

/-- The alarms of the past are nobody's in the renewed world. -/
theorem fits_renewed (settled : ∀ c, (w.clock c).Settled) : (w.pastOf h).Fits (w.renewed h) := by
  intro c id g owned
  obtain ⟨-, known⟩ := owner_pastOf.mp owned
  have sole := (settled c id _ known).map fun _ => AlarmOwner.disown h
  rw [clock_renewed]
  rwa [AlarmOwner.disown, if_pos rfl] at sole

end World
end EventEngine
