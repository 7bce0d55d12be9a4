import EventEngine.Proofs.Delivery
import EventEngine.Proofs.Queues.History

/-!
# The order of dispatches

A handler's line is what has been dispatched, then the record that waits for the lock, then the
queue. A record joins the line at its end, or ahead of the queue; everything else only takes records
out of the line. So two records are dispatched as they stand in line when the later one joins it.
-/
namespace EventEngine

variable {π : Type}

open Occurrence

namespace Handler

/-- What has been dispatched, then what waits for the lock, then what is queued. -/
def line (x : Handler π) (story : List (Occurrence π)) : List (Record π) :=
  dispatched story ++ x.waiting.toList ++ x.queue.events

theorem held_toList (x : Handler π) :
    x.held.toList = x.waiting.toList ++ x.current.toList := by
  rcases hx : x.worker with _ | _ | _ | _ <;> simp [held, waiting, current, hx, Worker.held]

variable {h : HandlerId} {x x' : Handler π} {notes story : List (Occurrence π)}

namespace Accounted

theorem accepted_nodup (books : x.Accounted story) : (accepted story).Nodup := by
  have serials : ((accepted story).map Record.serial).Nodup := by
    rw [books.serials]
    exact List.nodup_range
  exact serials.of_map

theorem serial_lt (books : x.Accounted story) {record : Record π}
    (member : record ∈ accepted story) : record.serial < x.issued := by
  have : record.serial ∈ (accepted story).map Record.serial := List.mem_map_of_mem member
  rwa [books.serials, List.mem_range] at this

/-- The line holds every accepted record that has not been discarded. -/
theorem line_perm (books : x.Accounted story) :
    (x.line story ++ discarded story).Perm (accepted story) := by
  classical
  refine List.perm_iff_count.mpr fun record => ?_
  have fates := List.perm_iff_count.mp books.fates record
  simp only [line, books.handed, held_toList, List.count_append] at fates ⊢
  omega

theorem line_nodup (books : x.Accounted story) : (x.line story).Nodup :=
  ((books.line_perm.nodup_iff.mpr books.accepted_nodup).sublist (List.sublist_append_left _ _))

theorem mem_accepted (books : x.Accounted story) {record : Record π}
    (member : record ∈ x.line story) : record ∈ accepted story :=
  books.line_perm.subset (List.mem_append_left _ member)

end Accounted

theorem dispatched_sublist_line : (dispatched story).Sublist (x.line story) := by
  rw [line, List.append_assoc]
  exact List.sublist_append_left _ _

/-- The record joins the line at its end, or ahead of the queue. -/
theorem line_enqueue (place : Place) (body : RecordBody π) :
    (x.enqueue place body).line (.enqueued h place (x.nextRecord body) :: story) =
      match place with
      | .tail => x.line story ++ [x.nextRecord body]
      | .head => dispatched story ++ x.waiting.toList ++ x.nextRecord body :: x.queue.events := by
  cases place <;> simp [line, Handler.enqueue, dispatched?, waiting]

@[simp] theorem accepted_exitStory : accepted (x.exitStory h ++ story) = accepted story := by
  unfold exitStory
  split
  · split <;> simp [accepted?]
  · rfl

@[simp] theorem dispatched_exitStory : dispatched (x.exitStory h ++ story) = dispatched story := by
  unfold exitStory
  split
  · split <;> simp [dispatched?]
  · rfl

/-- A worker that holds nothing leaves, with the queue or without it. -/
theorem line_exit (idle : x.waiting = none) :
    (x.exit.line (x.exitStory h ++ story)).Sublist (x.line story) := by
  have lost : x.exit.queue.events.Sublist x.queue.events := by
    unfold exit
    split
    · exact List.nil_sublist _
    · exact .refl _
  rw [line, line, dispatched_exitStory, idle]
  exact List.Sublist.append_left lost _

/-- In one turn a record joins the line, or the line only loses records. -/
theorem Turn.line_cases (turn : Turn h x notes x') (story : List (Occurrence π)) :
    (∃ place body, x' = x.enqueue place body ∧ notes = [.enqueued h place (x.nextRecord body)]) ∨
    (x'.issued = x.issued ∧ accepted (notes ++ story) = accepted story ∧
      (x'.line (notes ++ story)).Sublist (x.line story)) := by
  cases turn with
  | enqueue place body admits => exact .inl ⟨place, body, rfl, rfl⟩
  | clear full =>
    refine .inr ⟨rfl, by simp [accepted?], ?_⟩
    simp [line, Handler.clear, dispatched?, waiting]
  | configure setup => exact .inr ⟨rfl, rfl, .refl _⟩
  | setClock c => exact .inr ⟨rfl, rfl, .refl _⟩
  | beginStart => exact .inr ⟨rfl, rfl, .refl _⟩
  | skipStart _ _ => exact .inr ⟨rfl, rfl, .refl _⟩
  | start id idle _ =>
    refine .inr ⟨rfl, by simp [accepted?], ?_⟩
    simp [line, dispatched?, waiting, idle, startedWith, armedWith, launch, prepare]
  | refuse idle _ => exact .inr ⟨rfl, rfl, .refl _⟩
  | crash id idle _ =>
    refine .inr ⟨rfl, by simp [accepted?], ?_⟩
    simp [line, dispatched?, waiting, idle, armedWith, prepare]
  | requestStop running => exact .inr ⟨rfl, rfl, .refl _⟩
  | take record rest idle queued =>
    refine .inr ⟨rfl, rfl, ?_⟩
    simp [line, waiting, idle, queued]
  | «begin» record since holding =>
    refine .inr ⟨rfl, by simp [accepted?], ?_⟩
    simp [line, dispatched?, waiting, holding]
  | finish record since elapsed dispatching =>
    refine .inr ⟨rfl, by simp [accepted?], ?_⟩
    simp [line, dispatched?, waiting, dispatching, recordDispatch]
  | panic record since dispatching =>
    have left : (x.exit.line (x.exitStory h ++ .panicked h record :: story)).Sublist
        (x.line (.panicked h record :: story)) := line_exit (by simp [waiting, dispatching])
    rw [List.append_assoc]
    refine .inr ⟨issued_exit, by simp [accepted?], left.trans ?_⟩
    simp [line, dispatched?]
  | leave idle aborted =>
    exact .inr ⟨issued_exit, accepted_exitStory, line_exit (by simp [waiting, idle])⟩
  | destroy idle => exact .inr ⟨rfl, rfl, .refl _⟩

end Handler

namespace World

variable {h : HandlerId} {u v w : World π} {x y : Handler π} {a b : Record π}

/-- On the way to a later world the line loses records, and those that join are numbered on. -/
theorem Run.line (run : Run v w) (hx : v.outline? h = some x) :
    ∃ y, w.outline? h = some y ∧ x.issued ≤ y.issued ∧
      ((y.line (w.story h)).filter (·.serial < x.issued)).Sublist (x.line (v.story h)) := by
  induction run with
  | refl => exact ⟨x, hx, Nat.le_refl _, List.filter_sublist⟩
  | tail _ step ih =>
    obtain ⟨y, hy, issued, lost⟩ := ih
    rcases step.evolves h with ⟨same, told⟩ | ⟨z, notes, y', hz, turn, hy', told⟩
    · exact ⟨y, same.trans hy, issued, by rw [told]; exact lost⟩
    · obtain rfl : y = z := Option.some.inj (hy.symm.trans hz)
      rw [told]
      rcases turn.line_cases _ with ⟨place, body, rfl, rfl⟩ | ⟨issued', -, fewer⟩
      · refine ⟨_, hy', ?_, ?_⟩
        · cases place <;> exact Nat.le_succ_of_le issued
        · have late : ¬ (y.nextRecord body).serial < x.issued := Nat.not_lt.mpr issued
          rw [List.singleton_append, Handler.line_enqueue]
          cases place <;> simpa [Handler.line, List.filter_cons, late] using lost
      · exact ⟨y', hy', issued'.symm ▸ issued, (fewer.filter _).trans lost⟩

/-- What was accepted and is dispatched later stands in line all the time. -/
theorem mem_line (reach : Reachable v) (run : Run v w) (hx : v.outline? h = some x)
    (member : a ∈ accepted (v.story h)) (later : a ∈ dispatched (w.story h)) :
    a ∈ x.line (v.story h) := by
  have books := reach.accounted_outline h x hx
  obtain ⟨y, hy, -, lost⟩ := Run.line run hx
  refine lost.subset (List.mem_filter.mpr ⟨Handler.dispatched_sublist_line.subset later, ?_⟩)
  simpa using books.serial_lt member

/-- Records are dispatched in the order in which they stand in line. -/
theorem dispatched_as_in_line (reach : Reachable v) (run : Run v w) (hx : v.outline? h = some x)
    (ordered : [a, b].Sublist (x.line (v.story h))) (ha : a ∈ dispatched (w.story h))
    (hb : b ∈ dispatched (w.story h)) : [a, b].Sublist (dispatched (w.story h)) := by
  have books := reach.accounted_outline h x hx
  have early : ∀ r ∈ [a, b], decide (r.serial < x.issued) = true := fun r member =>
    decide_eq_true (books.serial_lt (books.mem_accepted (ordered.subset member)))
  obtain ⟨y, hy, -, lost⟩ := Run.line run hx
  exact pair_kept books.line_nodup ordered early lost
    (Handler.dispatched_sublist_line (x := y)) ha hb

/-- What makes a record part of the story. -/
theorem joins_of_told (step : Next u v) {place : Place}
    (told : v.story h = .enqueued h place b :: u.story h) : ∃ x body, u.outline? h = some x ∧
      v.outline? h = some (x.enqueue place body) ∧ b = x.nextRecord body := by
  rcases step.evolves h with ⟨-, told'⟩ | ⟨x, notes, x', hx, turn, hx', told'⟩
  · exact absurd (told.symm.trans told') (List.cons_ne_self _ _)
  · have same : notes = [.enqueued h place b] := List.append_cancel_right (told'.symm.trans told)
    rcases turn.line_cases (u.story h) with ⟨place', body, rfl, joined⟩ | ⟨-, kept, -⟩
    · rw [joined, List.singleton_inj] at same
      cases same
      exact ⟨x, body, hx, hx', rfl⟩
    · simp [same, accepted?] at kept

/-- Of two records the later one is dispatched first just if it was put ahead of the queue while the
earlier one was queued. -/
theorem overtakes_iff (reach : Reachable u) (step : Next u v) (run : Run v w) {place : Place}
    (told : v.story h = .enqueued h place b :: u.story h) (hx : u.outline? h = some x)
    (early : a ∈ accepted (u.story h)) (ha : a ∈ dispatched (w.story h))
    (hb : b ∈ dispatched (w.story h)) :
    [b, a].Sublist (dispatched (w.story h)) ↔ place = .head ∧ a ∈ x.queue.events := by
  obtain ⟨x', body, hx', hy, rfl⟩ := joins_of_told step told
  obtain rfl : x = x' := Option.some.inj (hx.symm.trans hx')
  have inLine := mem_line reach (.head step run) hx early ha
  have nodup : (dispatched (w.story h)).Nodup := by
    obtain ⟨y, hy, -, -⟩ := Run.line run hy
    exact ((reach.run (.head step run)).accounted_outline h y hy).line_nodup.sublist
      Handler.dispatched_sublist_line
  have ordered : ∀ {c d}, [c, d].Sublist ((x.enqueue place body).line (v.story h)) →
      c ∈ dispatched (w.story h) → d ∈ dispatched (w.story h) →
      [c, d].Sublist (dispatched (w.story h)) :=
    fun ordered hc hd => dispatched_as_in_line (reach.next step) run hy ordered hc hd
  rw [told, Handler.line_enqueue] at ordered
  cases place with
  | tail =>
    refine iff_of_false (fun swapped => ?_) (by simp)
    exact pair_asymm nodup swapped (ordered (pair_append inLine (by simp)) ha hb)
  | head =>
    simp only [true_and]
    constructor
    · intro swapped
      by_contra gone
      have served : a ∈ dispatched (u.story h) ++ x.waiting.toList :=
        (List.mem_append.mp inLine).resolve_right gone
      exact pair_asymm nodup swapped (ordered (pair_append served (by simp)) ha hb)
    · intro queued
      exact ordered ((List.Sublist.cons_cons _ (List.singleton_sublist.mpr queued)).trans
        (List.sublist_append_right _ _)) hb ha

/-- Every accepted record joined the line at some moment. -/
theorem accepted_at (run : Run v w) (absent : b ∉ accepted (v.story h))
    (member : b ∈ accepted (w.story h)) : ∃ u u' place, Run v u ∧ Next u u' ∧ Run u' w ∧
      u'.story h = .enqueued h place b :: u.story h := by
  induction run with
  | refl => exact absurd member absent
  | @tail u u' before step ih =>
    by_cases earlier : b ∈ accepted (u.story h)
    · obtain ⟨t, t', place, run, joins, run', joined⟩ := ih earlier
      exact ⟨t, t', place, run, joins, run'.tail step, joined⟩
    · rcases step.evolves h with ⟨-, told⟩ | ⟨y, notes, y', hy, turn, hy', told⟩
      · exact absurd (told ▸ member) earlier
      · rw [told] at member
        rcases turn.line_cases (u.story h) with ⟨place, body, rfl, rfl⟩ | ⟨-, same, -⟩
        · have joined : b = y.nextRecord body := by simpa [accepted?, earlier] using member
          exact ⟨u, u', place, before, step, .refl, by rw [told, joined]; rfl⟩
        · exact absurd (same ▸ member) earlier

/-- The earlier of two records was accepted before the later one came. -/
theorem accepted_before (nodup : (accepted (w.story h)).Nodup) (run : Run v w) {place : Place}
    (told : v.story h = .enqueued h place b :: u.story h)
    (ordered : [a, b].Sublist (accepted (w.story h))) : a ∈ accepted (u.story h) := by
  obtain ⟨notes, later⟩ := Run.story_append (h := h) run
  have parts : accepted (w.story h) = accepted (u.story h) ++ b :: accepted notes := by
    simp [later, told, accepted, accepted?]
  rw [parts] at nodup ordered
  exact pair_front nodup ordered

/-- The moment at which a record overtook another is found in every run that dispatches them so. -/
theorem dispatched_first_iff (reach : Reachable w) (nodup : (accepted (w.story h)).Nodup)
    (ordered : [a, b].Sublist (accepted (w.story h))) (ha : a ∈ dispatched (w.story h))
    (hb : b ∈ dispatched (w.story h)) :
    [b, a].Sublist (dispatched (w.story h)) ↔
      ∃ u v y, Reachable u ∧ Next u v ∧ Run v w ∧ u.handlers[h]? = some y ∧
        v.story h = .enqueued h .head b :: u.story h ∧ a ∈ y.queue.events := by
  obtain ⟨w₀, fresh, run⟩ := reach
  have untold : b ∉ accepted (w₀.story h) := by simp [story, fresh.history]
  constructor
  · intro swapped
    obtain ⟨u, v, place, before, joins, after, told⟩ :=
      accepted_at run untold (ordered.subset (by simp))
    obtain ⟨y, -, hy, -, -⟩ := joins_of_told joins told
    have early := accepted_before nodup after told ordered
    obtain ⟨rfl, queued⟩ :=
      (overtakes_iff ⟨w₀, fresh, before⟩ joins after told hy early ha hb).mp swapped
    obtain ⟨z, hz, rfl⟩ := outline?_eq_some.mp hy
    exact ⟨u, v, z, ⟨w₀, fresh, before⟩, joins, after, hz, told, queued⟩
  · rintro ⟨u, v, y, reachable, joins, after, hy, told, queued⟩
    have early := accepted_before nodup after told ordered
    have outlined : u.outline? h = some y.outline := outline?_eq_some.mpr ⟨y, hy, rfl⟩
    exact (overtakes_iff reachable joins after told outlined early ha hb).mpr ⟨rfl, queued⟩

/-- A signal that succeeds has queued its event. -/
theorem story_signal {who : Caller} {place : Place} {typeName : String} {payload : π}
    {script : List (Action π)} (hx : w.handlers[h]? = some x)
    (answered : w.perform who (.signal h place typeName payload script) = (v, .replied .done)) :
    ∃ registration, v.story h =
      .enqueued h place (x.nextRecord (.event registration ⟨typeName, payload, script⟩)) ::
        w.story h := by
  simp only [perform, withHandler] at answered
  split at answered
  · next y found =>
    obtain rfl : y = x := Option.some.inj ((find?_eq_some.mp found).1.symm.trans hx)
    unfold signal at answered
    split at answered
    · next registration _ =>
      refine ⟨registration, ?_⟩
      rw [← show w.enqueue h y place _ = v from congrArg Prod.fst answered]
      rw [enqueue, story_note_self rfl, story_modify]
    · simp [replyOf] at answered
  · simp at answered

/-- Neither a start nor a panic without a pending stop touches the queue. -/
theorem queue_kept (step : Next v w) (hx : v.outline? h = some x) (hy : w.outline? h = some y)
    {o : Occurrence π} (kind : o = .started h ∨ ∃ a, o = .panicked h a)
    (told : w.story h = o :: v.story h) : y.queue.events = x.queue.events := by
  rcases step.evolves h with ⟨-, told'⟩ | ⟨z, notes, z', hz, turn, hz', told'⟩
  · exact absurd (told.symm.trans told') (List.cons_ne_self _ _)
  · obtain rfl : x = z := Option.some.inj (hx.symm.trans hz)
    obtain rfl : y = z' := Option.some.inj (hy.symm.trans hz')
    have notes_eq : notes = [o] := List.append_cancel_right (told'.symm.trans told)
    cases turn with
    | start id idle => rfl
    | panic record since dispatching =>
      have kept : ¬ x.stopRequested = true := by
        intro requested
        simp [Handler.exitStory, requested] at notes_eq
      simp [Handler.exit, kept]
    | leave idle aborted =>
      rcases kind with rfl | ⟨a, rfl⟩ <;> unfold Handler.exitStory at notes_eq <;>
        split at notes_eq <;> simp at notes_eq
    | _ => rcases kind with rfl | ⟨a, rfl⟩ <;> simp at notes_eq

/-- Every accepted record is queued, held by the worker, completed or discarded, and it is so just
once; a dispatcher has been handed what is completed and what is being dispatched. Of two dispatched
records the later one is dispatched first just if it was put ahead of the queue while the earlier
one was queued. A signal that succeeds is accepted; a start, and a panic without a pending stop,
leave the queue as it is; and what is queued is dispatched in queue order. -/
theorem delivered_once_in_order (reach : Reachable w) (hx : w.handlers[h]? = some x) :
    (accepted (w.story h)).Nodup ∧
    (accepted (w.story h)).Perm
      (x.queue.events ++ x.held.toList ++ completed (w.story h) ++ discarded (w.story h)) ∧
    dispatched (w.story h) = completed (w.story h) ++ x.current.toList ∧
    (∀ a b, [a, b].Sublist (accepted (w.story h)) → a ∈ dispatched (w.story h) →
      b ∈ dispatched (w.story h) →
      ([b, a].Sublist (dispatched (w.story h)) ↔
        ∃ u v y, Reachable u ∧ Next u v ∧ Run v w ∧ u.handlers[h]? = some y ∧
          v.story h = .enqueued h .head b :: u.story h ∧ a ∈ y.queue.events)) ∧
    (∀ (u v : World π) y who place typeName payload script, u.handlers[h]? = some y →
      u.perform who (.signal h place typeName payload script) = (v, .replied .done) →
      ∃ registration, v.story h =
        .enqueued h place (y.nextRecord (.event registration ⟨typeName, payload, script⟩)) ::
          u.story h) ∧
    (∀ v y o, Next w v → v.handlers[h]? = some y → v.story h = o :: w.story h →
      (o = .started h ∨ ∃ a, o = .panicked h a) → y.queue.events = x.queue.events) ∧
    ∀ v a b, Run w v → [a, b].Sublist x.queue.events → a ∈ dispatched (v.story h) →
      b ∈ dispatched (v.story h) → [a, b].Sublist (dispatched (v.story h)) := by
  have books := reach.accounted hx
  have outlined : w.outline? h = some x.outline := outline?_eq_some.mpr ⟨x, hx, rfl⟩
  refine ⟨books.accepted_nodup, books.fates, books.handed, ?_, ?_, ?_, ?_⟩
  · intro a b ordered ha hb
    exact dispatched_first_iff reach books.accepted_nodup ordered ha hb
  · intro u v y who place typeName payload script hy answered
    exact story_signal hy answered
  · intro v y o step hy told kind
    have outlined' : v.outline? h = some y.outline := outline?_eq_some.mpr ⟨y, hy, rfl⟩
    exact queue_kept (x := x.outline) (y := y.outline) step outlined outlined' kind told
  · intro v a b run queued ha hb
    have inLine : [a, b].Sublist (x.outline.line (w.story h)) :=
      queued.trans (List.sublist_append_right _ _)
    exact dispatched_as_in_line reach run outlined inLine ha hb

/-- The second of two events is dispatched first, since it went ahead of the first in the queue. -/
theorem oob_event_overtakes :
    let a : Record Nat := ⟨0, .event ⟨"A", "a"⟩ ⟨"A", 7, []⟩⟩
    let b : Record Nat := ⟨1, .event ⟨"A", "a"⟩ ⟨"A", 8, []⟩⟩
    let w := (single Nat).steps 10
      [.act (.signal 0 .tail "A" 7 []), .act (.signal 0 .head "A" 8 []), .act (.start 0)]
    ∃ u v y, Reachable u ∧ Next u v ∧ Run v w ∧ u.handlers[0]? = some y ∧
      v.story 0 = .enqueued 0 .head b :: u.story 0 ∧ a ∈ y.queue.events := by
  intro a b w
  have reach : Reachable w := single_fresh.reachable.steps 10 _
  obtain ⟨x, hx⟩ : ∃ x, w.handlers[0]? = some x := Option.isSome_iff_exists.mp (by decide)
  have accepted : accepted (w.story 0) = [a, b] := rfl
  have dispatched : dispatched (w.story 0) = [b, a] := rfl
  obtain ⟨-, -, -, order, -⟩ := delivered_once_in_order reach hx
  refine (order a b ?_ ?_ ?_).mp ?_ <;> simp [accepted, dispatched]

end World
end EventEngine
