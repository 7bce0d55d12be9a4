import EventEngine.Proofs.Delivery

/-!
# The counters of a handler

Each counter of the metrics is a count over the handler's story, wrapped to 64 bits. The books of
the records then balance the counters: what came in is what was dispatched or cleared, what is
queued or held, and what was lost to panics.
-/
namespace EventEngine

variable {π : Type}

namespace Occurrence

/-- Whether a record was queued at a place. -/
def isEnqueuedAt (place : Place) : Occurrence π → Bool
  | enqueued _ place' _ => place' = place
  | _ => false

/-- Whether a registered dispatcher came to its end. -/
def isDispatched : Occurrence π → Bool
  | finished _ ⟨_, .event _ _⟩ => true
  | _ => false

/-- Whether the timeout dispatcher came to its end. -/
def isTimedOut : Occurrence π → Bool
  | finished _ ⟨_, .timeout _ _⟩ => true
  | _ => false

/-- Every accepted record was queued at one end. -/
theorem length_accepted (story : List (Occurrence π)) :
    (accepted story).length =
      story.countP (isEnqueuedAt .tail) + story.countP (isEnqueuedAt .head) := by
  induction story with
  | nil => rfl
  | cons o story ih =>
    rw [accepted_cons, List.length_append, ih, List.countP_cons, List.countP_cons]
    cases o with
    | enqueued h place record => cases place <;> simp [accepted?, isEnqueuedAt] <;> omega
    | _ => simp [accepted?, isEnqueuedAt]

/-- Every completed dispatch was an event's or a timeout's, or ended by a panic. -/
theorem length_completed (story : List (Occurrence π)) :
    (completed story).length =
      story.countP isDispatched + story.countP isTimedOut + story.countP isPanicked := by
  induction story with
  | nil => rfl
  | cons o story ih =>
    rw [completed_cons, List.length_append, ih]
    simp only [List.countP_cons]
    cases o with
    | finished h record =>
      rcases record with ⟨serial, _ | _⟩ <;>
        simp [completed?, isDispatched, isTimedOut, isPanicked] <;> omega
    | panicked h record => simp [completed?, isDispatched, isTimedOut, isPanicked]; omega
    | _ => simp [completed?, isDispatched, isTimedOut, isPanicked]

end Occurrence

open Occurrence

namespace Metrics

/-- Every counter is the count of its occurrences, in a word of 64 bits. -/
structure Counts (m : Metrics) (story : List (Occurrence π)) : Prop where
  enqueued : m.enqueued = .ofNat (story.countP (isEnqueuedAt .tail))
  enqueuedOob : m.enqueuedOob = .ofNat (story.countP (isEnqueuedAt .head))
  dispatched : m.dispatched = .ofNat (story.countP isDispatched)
  timeouts : m.timeouts = .ofNat (story.countP isTimedOut)
  cleared : m.cleared = .ofNat (discarded story).length
  starts : m.starts = .ofNat (story.countP isStarted)
  stops : m.stops = .ofNat (story.countP isStopped)

namespace Counts

variable {h : HandlerId} {m : Metrics} {story : List (Occurrence π)}

theorem nil : ({} : Metrics).Counts ([] : List (Occurrence π)) := by
  constructor <;> rfl

theorem enqueue (counts : m.Counts story) (place : Place) (record : Record π) :
    (match place with | .tail => m.recordEnqueued | .head => m.recordEnqueuedOob).Counts
      (.enqueued h place record :: story) := by
  obtain ⟨enqueued, enqueuedOob, dispatched, timeouts, cleared, starts, stops⟩ := counts
  cases place <;> constructor <;>
    simp [recordEnqueued, recordEnqueuedOob, isEnqueuedAt, isDispatched, isTimedOut, discards,
      isStarted, isStopped, UInt64.ofNat_add, *]

theorem clear (counts : m.Counts story) (records : List (Record π)) :
    (m.recordCleared records.length).Counts (.cleared h records :: story) := by
  obtain ⟨enqueued, enqueuedOob, dispatched, timeouts, cleared, starts, stops⟩ := counts
  constructor <;>
    simp [recordCleared, isEnqueuedAt, isDispatched, isTimedOut, discards, isStarted, isStopped,
      UInt64.ofNat_add, *]

theorem start (counts : m.Counts story) : m.recordStart.Counts (.started h :: story) := by
  obtain ⟨enqueued, enqueuedOob, dispatched, timeouts, cleared, starts, stops⟩ := counts
  constructor <;>
    simp [recordStart, isEnqueuedAt, isDispatched, isTimedOut, discards, isStarted, isStopped,
      List.countP_cons, UInt64.ofNat_add, *]

theorem stop (counts : m.Counts story) : m.recordStop.Counts (.stopped h :: story) := by
  obtain ⟨enqueued, enqueuedOob, dispatched, timeouts, cleared, starts, stops⟩ := counts
  constructor <;>
    simp [recordStop, isEnqueuedAt, isDispatched, isTimedOut, discards, isStarted, isStopped,
      List.countP_cons, UInt64.ofNat_add, *]

theorem finish (counts : m.Counts story) (record : Record π) (elapsed : Duration) :
    (match record.body with
      | .event _ _ => m.recordDispatched elapsed
      | .timeout _ _ => m.recordTimeout elapsed).Counts (.finished h record :: story) := by
  obtain ⟨enqueued, enqueuedOob, dispatched, timeouts, cleared, starts, stops⟩ := counts
  rcases record with ⟨serial, _ | _⟩ <;> constructor <;>
    simp [recordDispatched, recordTimeout, isEnqueuedAt, isDispatched, isTimedOut, discards,
      isStarted, isStopped, List.countP_cons, UInt64.ofNat_add, *]

/-- Neither the beginning of a dispatch nor a panic counts. -/
theorem pass (counts : m.Counts story) {o : Occurrence π}
    (kind : (∃ record, o = .began h record) ∨ (∃ record, o = .panicked h record) ∨
      o = .spawnPanicked h) : m.Counts (o :: story) := by
  obtain ⟨enqueued, enqueuedOob, dispatched, timeouts, cleared, starts, stops⟩ := counts
  rcases kind with ⟨record, rfl⟩ | ⟨record, rfl⟩ | rfl <;> constructor <;>
    simp [isEnqueuedAt, isDispatched, isTimedOut, discards, isStarted, isStopped, *]

end Counts
end Metrics

namespace Handler

variable {h : HandlerId} {x x' : Handler π} {notes story : List (Occurrence π)}

/-- A pending stop counts what it discards, and itself. -/
theorem counts_exit (counts : x.metrics.Counts story) :
    x.exit.metrics.Counts (x.exitStory h ++ story) := by
  unfold Handler.exit exitStory
  split
  · split
    · next empty =>
      have none : x.queue.events = [] := List.isEmpty_iff.mp empty
      have same : x.completeStop.metrics = x.metrics.recordStop := by
        simp [completeStop, Handler.clear, Metrics.recordStop, Metrics.recordCleared, pending,
          Queue.length, none]
      rw [List.singleton_append]
      exact same ▸ counts.stop
    · exact (counts.clear (h := h) x.queue.events).stop
  · exact counts

/-- Every turn counts what it adds to the story. -/
theorem Turn.counts (turn : Turn h x notes x') (counts : x.metrics.Counts story) :
    x'.metrics.Counts (notes ++ story) := by
  cases turn with
  | enqueue place body admits =>
    have counted := counts.enqueue (h := h) place (x.nextRecord body)
    cases place <;> exact counted
  | clear full => exact counts.clear x.queue.events
  | start id idle _ => exact counts.start
  | crash id idle _ => exact counts.pass (.inr (.inr rfl))
  | «begin» record since holding => exact counts.pass (.inl ⟨record, rfl⟩)
  | finish record since elapsed dispatching => exact counts.finish record elapsed
  | panic record since dispatching =>
    rw [List.append_assoc]
    exact counts_exit (counts.pass (.inr (.inl ⟨record, rfl⟩)))
  | leave idle aborted => exact counts_exit counts
  | _ => exact counts

theorem counts_new (x : Handler π) (new : x.New) :
    x.metrics.Counts ([] : List (Occurrence π)) := by
  obtain ⟨_, _, _, _, _, _, rfl⟩ := new
  exact .nil

end Handler

namespace World

theorem Reachable.counts {w : World π} (reach : Reachable w) {h : HandlerId} {x : Handler π}
    (hx : w.handlers[h]? = some x) : x.metrics.Counts (w.story h) :=
  reach.turns (P := fun x story => x.metrics.Counts story) Handler.counts_new
    (fun _ _ _ _ counts turn => turn.counts counts) x.outline
    (outline?_eq_some.mpr ⟨x, hx, rfl⟩)

/-- Before any counter wraps around, what came in is what was dispatched or cleared, what is queued
or held, and the dispatches that panicked. So the difference that `outstanding` takes is never cut
off at zero. -/
theorem counters_conserved {w : World π} (reach : Reachable w) {h : HandlerId} {x : Handler π}
    (hx : w.handlers[h]? = some x) (few : (accepted (w.story h)).length < UInt64.size) :
    let m := x.metrics
    let rest := x.pending + (if x.held.isSome then 1 else 0) + (w.story h).countP isPanicked
    m.enqueued.toNat + m.enqueuedOob.toNat =
      m.dispatched.toNat + m.timeouts.toNat + m.cleared.toNat + rest ∧
    m.dispatches + m.cleared ≤ m.enqueued + m.enqueuedOob ∧
    m.outstanding.toNat = rest := by
  intro m rest
  have balance := (reach.accounted hx).fates.length_eq
  have held : x.held.toList.length = if x.held.isSome then 1 else 0 := by
    cases x.held <;> rfl
  have exact : ∀ n, n ≤ (accepted (w.story h)).length → (UInt64.ofNat n).toNat = n :=
    fun n le => UInt64.toNat_ofNat_of_lt (Nat.lt_of_le_of_lt le few)
  have counts : m.Counts (w.story h) := reach.counts hx
  simp only [List.length_append, length_accepted, length_completed, held, UInt64.size]
    at balance exact few
  have enqueued := exact _ (Nat.le_add_right _ _)
  have enqueuedOob := exact _ (Nat.le_add_left _ _)
  have dispatched := exact ((w.story h).countP isDispatched) (by omega)
  have timeouts := exact ((w.story h).countP isTimedOut) (by omega)
  have cleared := exact (discarded (w.story h)).length (by omega)
  rw [← counts.enqueued] at enqueued
  rw [← counts.enqueuedOob] at enqueuedOob
  rw [← counts.dispatched] at dispatched
  rw [← counts.timeouts] at timeouts
  rw [← counts.cleared] at cleared
  have balanced : m.enqueued.toNat + m.enqueuedOob.toNat =
      m.dispatched.toNat + m.timeouts.toNat + m.cleared.toNat + rest := by
    rw [enqueued, enqueuedOob, dispatched, timeouts, cleared, balance]
    simp only [rest, Handler.pending, Queue.length]
    omega
  have received : (m.enqueued + m.enqueuedOob).toNat = m.enqueued.toNat + m.enqueuedOob.toNat := by
    rw [UInt64.toNat_add]
    omega
  have handled : (m.dispatches + m.cleared).toNat =
      m.dispatched.toNat + m.timeouts.toNat + m.cleared.toNat := by
    rw [Metrics.dispatches, UInt64.toNat_add, UInt64.toNat_add]
    omega
  have covered : m.dispatches + m.cleared ≤ m.enqueued + m.enqueuedOob := by
    rw [UInt64.le_iff_toNat_le]
    omega
  refine ⟨balanced, covered, ?_⟩
  simp only [Metrics.outstanding]
  rw [if_pos covered, UInt64.toNat_sub_of_le _ _ covered]
  omega

/-- One of three events is dispatched, one panics, and one stays queued. -/
theorem counters_after_panic :
    let w := (single Nat).steps 20
      [.act (.signal 0 .tail "A" 7 []), .act (.signal 0 .tail "A" 8 [.panic]),
        .act (.signal 0 .tail "A" 9 []), .act (.start 0)]
    ∃ x, w.handlers[0]? = some x ∧ (accepted (w.story 0)).length < UInt64.size ∧
      x.metrics.enqueued.toNat + x.metrics.enqueuedOob.toNat =
        x.metrics.dispatched.toNat + x.metrics.timeouts.toNat + x.metrics.cleared.toNat + 2 ∧
      x.metrics.outstanding.toNat = 2 := by
  intro w
  have reach : Reachable w := single_fresh.reachable.steps 20 _
  obtain ⟨x, hx⟩ : ∃ x, w.handlers[0]? = some x := Option.isSome_iff_exists.mp (by decide)
  have few : (accepted (w.story 0)).length < UInt64.size := by decide
  have rest : x.pending + (if x.held.isSome then 1 else 0) + (w.story 0).countP isPanicked = 2 := by
    rw [← Option.some.inj hx]
    rfl
  obtain ⟨balanced, -, outstanding⟩ := counters_conserved reach hx few
  rw [rest] at balanced outstanding
  exact ⟨x, hx, few, balanced, outstanding⟩

end World
end EventEngine
