import EventEngine.Proofs.Turns.Steps

/-!
# Delivery of records

A handler's story tells which records were accepted, dispatched, completed and discarded. Every
accepted record is in exactly one place, and the records that are dispatched come out of one line:
what has been dispatched, then the record that waits for the lock, then the queue. A record joins
the line behind or before the queue, and from then on the line only loses records.
-/
namespace EventEngine

variable {π : Type}

namespace Occurrence

/-- The record that was put on the queue. -/
def accepted? : Occurrence π → Option (Record π)
  | enqueued _ _ record => some record
  | _ => none

/-- The record whose dispatch began. -/
def dispatched? : Occurrence π → Option (Record π)
  | began _ record => some record
  | _ => none

/-- The record whose dispatch ended, by itself or by a panic. -/
def completed? : Occurrence π → Option (Record π)
  | finished _ record => some record
  | panicked _ record => some record
  | _ => none

/-- The records that were discarded. -/
def discards : Occurrence π → List (Record π)
  | cleared _ records => records
  | _ => []

/-- The records put on the queue, in order. -/
def accepted (story : List (Occurrence π)) : List (Record π) := story.reverse.filterMap accepted?

/-- The records handed to a dispatcher, in order. -/
def dispatched (story : List (Occurrence π)) : List (Record π) :=
  story.reverse.filterMap dispatched?

/-- The records whose dispatch has ended, in order. -/
def completed (story : List (Occurrence π)) : List (Record π) := story.reverse.filterMap completed?

/-- The records discarded by clears and by completed stops, in order. -/
def discarded (story : List (Occurrence π)) : List (Record π) := story.reverse.flatMap discards

variable (o : Occurrence π) (story : List (Occurrence π))

@[simp] theorem accepted_nil : accepted ([] : List (Occurrence π)) = [] := rfl
@[simp] theorem dispatched_nil : dispatched ([] : List (Occurrence π)) = [] := rfl
@[simp] theorem completed_nil : completed ([] : List (Occurrence π)) = [] := rfl
@[simp] theorem discarded_nil : discarded ([] : List (Occurrence π)) = [] := rfl

@[simp] theorem accepted_cons : accepted (o :: story) = accepted story ++ o.accepted?.toList := by
  cases h : o.accepted? <;> simp [accepted, h]

@[simp] theorem dispatched_cons :
    dispatched (o :: story) = dispatched story ++ o.dispatched?.toList := by
  cases h : o.dispatched? <;> simp [dispatched, h]

@[simp] theorem completed_cons :
    completed (o :: story) = completed story ++ o.completed?.toList := by
  cases h : o.completed? <;> simp [completed, h]

@[simp] theorem discarded_cons : discarded (o :: story) = discarded story ++ o.discards := by
  simp [discarded]

end Occurrence

open Occurrence

namespace Handler

def current (x : Handler π) : Option (Record π) :=
  match x.worker with
  | some (.dispatching record _ _ _) => some record
  | _ => none

/-- The record that the worker holds while it waits for the dispatch lock. -/
def waiting (x : Handler π) : Option (Record π) :=
  match x.worker with
  | some (.holding record) => some record
  | _ => none

/-- The books of a handler agree with its story. -/
structure Accounted (x : Handler π) (story : List (Occurrence π)) : Prop where
  /-- Every accepted record is queued, held, completed or discarded, and nothing else is. -/
  fates : (accepted story).Perm
    (x.queue.events ++ x.held.toList ++ completed story ++ discarded story)
  /-- Records are numbered in the order in which they were accepted. -/
  serials : (accepted story).map Record.serial = List.range x.issued
  /-- A dispatcher has been handed what is completed and what is being dispatched. -/
  handed : dispatched story = completed story ++ x.current.toList

namespace Accounted

variable {h : HandlerId} {x y : Handler π} {story : List (Occurrence π)}

/-- Only queue, worker and numbering matter. -/
theorem congr (books : x.Accounted story) (queue : y.queue.events = x.queue.events)
    (held : y.held = x.held) (current : y.current = x.current) (issued : y.issued = x.issued) :
    y.Accounted story :=
  ⟨by rw [queue, held]; exact books.fates, by rw [issued]; exact books.serials,
    by rw [current]; exact books.handed⟩

theorem enqueue (books : x.Accounted story) (place : Place) (body : RecordBody π) :
    (x.enqueue place body).Accounted (.enqueued h place (x.nextRecord body) :: story) := by
  classical
  refine ⟨List.perm_iff_count.mpr fun r => ?_, ?_, ?_⟩
  · have := List.perm_iff_count.mp books.fates r
    cases place <;>
      simp only [Handler.enqueue, accepted_cons, accepted?, completed_cons, completed?,
        discarded_cons, discards, Queue.events_enqueueTail, Queue.events_enqueueHead,
        List.append_nil, List.count_append, List.count_cons, List.count_nil, Option.toList_some,
        Option.toList_none, Handler.held] at this ⊢ <;> omega
  · cases place <;>
      simp [Handler.enqueue, accepted?, books.serials, List.range_succ, nextRecord]
  · cases place <;> simpa [Handler.enqueue, dispatched?, completed?, current] using books.handed

theorem clear (books : x.Accounted story) :
    x.clear.Accounted (.cleared h x.queue.events :: story) := by
  classical
  refine ⟨List.perm_iff_count.mpr fun r => ?_, ?_, ?_⟩
  · have := List.perm_iff_count.mp books.fates r
    simp only [Handler.clear, accepted_cons, accepted?, completed_cons, completed?, discarded_cons,
      discards, Queue.events_clear, List.append_nil, List.nil_append, List.count_append,
      Option.toList_none, Handler.held] at this ⊢
    omega
  · simpa [Handler.clear, accepted?] using books.serials
  · simpa [Handler.clear, dispatched?, completed?, current] using books.handed

/-- The worker takes the head of the queue. -/
theorem take (books : x.Accounted story) {record : Record π} {rest : List (Record π)}
    (events : x.queue.events = record :: rest) (idle : x.held = none) (current : x.current = none)
    (queue : y.queue.events = rest) (held : y.held = some record)
    (current' : y.current = none) (issued : y.issued = x.issued) : y.Accounted story := by
  classical
  refine ⟨List.perm_iff_count.mpr fun r => ?_, by rw [issued]; exact books.serials,
    by rw [current', ← current]; exact books.handed⟩
  have := List.perm_iff_count.mp books.fates r
  simp only [events, idle, queue, held, List.count_append, List.count_cons, List.count_nil,
    Option.toList_some, Option.toList_none] at this ⊢
  omega

/-- The dispatch of the held record begins. -/
theorem begin (books : x.Accounted story) {record : Record π} (current : x.current = none)
    (queue : y.queue.events = x.queue.events) (held : y.held = x.held)
    (current' : y.current = some record) (issued : y.issued = x.issued) :
    y.Accounted (.began h record :: story) := by
  refine ⟨?_, ?_, ?_⟩
  · simpa [accepted?, completed?, discards, queue, held] using books.fates
  · simpa [accepted?, issued] using books.serials
  · simp [dispatched?, completed?, books.handed, current, current']

/-- The dispatch of the current record ends, in one way or the other. -/
theorem complete (books : x.Accounted story) {o : Occurrence π} {record : Record π}
    (ends : o = .finished h record ∨ o = .panicked h record) (held : x.held = some record)
    (current : x.current = some record) (queue : y.queue.events = x.queue.events)
    (held' : y.held = none) (current' : y.current = none) (issued : y.issued = x.issued) :
    y.Accounted (o :: story) := by
  classical
  refine ⟨List.perm_iff_count.mpr fun r => ?_, ?_, ?_⟩
  · have := List.perm_iff_count.mp books.fates r
    rcases ends with rfl | rfl <;>
      simp only [accepted_cons, accepted?, completed_cons, completed?, discarded_cons, discards,
        queue, held, held', List.append_nil, List.count_append, Option.toList_some,
        Option.toList_none] at this ⊢ <;> omega
  · rcases ends with rfl | rfl <;> simpa [accepted?, issued] using books.serials
  · rcases ends with rfl | rfl <;>
      simp [dispatched?, completed?, books.handed, current, current']

/-- The start or the stop of a worker is nothing to the records. -/
theorem note (books : x.Accounted story) {o : Occurrence π}
    (neutral : o = .started h ∨ o = .stopped h ∨ o = .spawnPanicked h) :
    x.Accounted (o :: story) := by
  obtain ⟨fates, serials, handed⟩ := books
  rcases neutral with rfl | rfl | rfl <;>
    exact ⟨by simpa [accepted?, completed?, discards] using fates,
      by simpa [accepted?] using serials, by simpa [dispatched?, completed?] using handed⟩

/-- A worker that holds nothing leaves, and what is queued is discarded if a stop is pending. -/
theorem exit (books : x.Accounted story) (idle : x.held = none) (current : x.current = none) :
    x.exit.Accounted (x.exitStory h ++ story) := by
  unfold Handler.exit exitStory
  split
  · split
    · next empty =>
      have none : x.queue.events = [] := List.isEmpty_iff.mp empty
      exact (books.note (.inr (.inl rfl))).congr none.symm idle.symm current.symm rfl
    · exact ((books.clear (h := h)).note (.inr (.inl rfl))).congr rfl idle.symm current.symm rfl
  · exact books.congr rfl idle.symm current.symm rfl

end Accounted

/-- The books are kept by every turn. -/
theorem Turn.accounted {h : HandlerId} {x x' : Handler π} {notes story : List (Occurrence π)}
    (turn : Turn h x notes x') (books : x.Accounted story) : x'.Accounted (notes ++ story) := by
  cases turn with
  | enqueue place body admits => exact books.enqueue place body
  | clear full => exact books.clear
  | configure setup => exact books.congr rfl rfl rfl rfl
  | setClock c => exact books.congr rfl rfl rfl rfl
  | beginStart => exact books.congr rfl rfl rfl rfl
  | skipStart _ _ => exact books.congr rfl rfl rfl rfl
  | start id idle _ =>
    exact (books.note (.inl rfl)).congr rfl
      (by simp [held, idle, startedWith, launch, Worker.held])
      (by simp [current, idle, startedWith, launch]) rfl
  | refuse idle _ => exact books.congr rfl rfl rfl rfl
  | crash id idle _ => exact (books.note (.inr (.inr rfl))).congr rfl rfl rfl rfl
  | requestStop running => exact books.congr rfl rfl rfl rfl
  | take record rest idle queued =>
    have events : x.queue.events = record :: rest := by rw [queued]
    exact books.take events (by simp [held, idle, Worker.held]) (by simp [current, idle])
      rfl rfl rfl rfl
  | «begin» record since holding =>
    exact books.begin (by simp [current, holding]) rfl (by simp [held, holding, Worker.held])
      rfl rfl
  | finish record since elapsed dispatching =>
    exact books.complete (.inl rfl) (by simp [held, dispatching, Worker.held])
      (by simp [current, dispatching]) rfl rfl rfl rfl
  | panic record since dispatching =>
    have ended : ({ x with worker := none } : Handler π).Accounted (.panicked h record :: story) :=
      books.complete (.inr rfl) (by simp [held, dispatching, Worker.held])
        (by simp [current, dispatching]) rfl rfl rfl rfl
    have left := ended.exit (h := h) rfl rfl
    have same : ({ x with worker := none } : Handler π).exit = x.exit := by
      unfold Handler.exit
      split <;> rfl
    rw [same] at left
    rw [List.append_assoc]
    exact left
  | leave idle aborted =>
    exact books.exit (by simp [held, idle, Worker.held]) (by simp [current, idle])
  | destroy idle => exact books.congr rfl rfl rfl rfl

/-- A handler to which nothing has happened yet. -/
theorem accounted_new (x : Handler π) (new : x.New) : x.Accounted [] := by
  obtain ⟨_, _, _, _, _, _, rfl⟩ := new
  exact ⟨by simp [held], by simp, by simp [current]⟩

@[simp] theorem current_outline (x : Handler π) : x.outline.current = x.current := by
  rcases hx : x.worker with _ | _ | _ | _ <;> simp [current, outline, hx, Worker.outline]

end Handler

namespace World

/-- The books of every handler are kept by all steps in any order. -/
theorem Reachable.accounted_outline {w : World π} (reach : Reachable w) (h : HandlerId) :
    ∀ x, w.outline? h = some x → x.Accounted (w.story h) :=
  reach.turns (P := Handler.Accounted) Handler.accounted_new
    fun _ _ _ _ books turn => turn.accounted books

theorem Reachable.accounted {w : World π} (reach : Reachable w) {h : HandlerId} {x : Handler π}
    (hx : w.handlers[h]? = some x) : x.Accounted (w.story h) :=
  (reach.accounted_outline h x.outline (outline?_eq_some.mpr ⟨x, hx, rfl⟩)).congr rfl
    x.held_outline.symm x.current_outline.symm rfl

end World
end EventEngine
