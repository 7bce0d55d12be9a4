import EventEngine.Proofs.Queues.History
import EventEngine.Queue.Shared

/-!
# Shared queues as histories

Whatever is asked of a shared queue, and whichever consumers look at it in between, it comes to
calls that are made to a single queue: each look is a wait.
-/
namespace EventEngine
namespace SharedQueue

variable {α : Type}

open Queue (History Call)

def Request.entering : Request α → List α
  | .tail a => [a]
  | .head a => [a]
  | .fill values => values
  | _ => []

def Response.handed : Response α → List α
  | .result r => r.event?.toList
  | .values vs => vs
  | _ => []

/-- Perform requests, letting the consumers run after each. Yields also the events handed out. -/
def serve (s : SharedQueue α) : List (Request α) → SharedQueue α × List α
  | [] => (s, [])
  | r :: rest =>
    let (s, response, results) := s.step r
    let (s, handed) := s.serve rest
    (s, response.handed ++ results.filterMap WaitResult.event? ++ handed)

/-- Some calls lead from one queue to the other, enqueue these events and dequeue those. -/
def Plays (q q' : Queue α) (entering handed : List α) : Prop :=
  ∃ calls : List (Call α), ∀ h : History α, h.queue = q →
    (h.play calls).queue = q' ∧ (h.play calls).enqueued = h.enqueued ++ entering ∧
      (h.play calls).dequeued = h.dequeued ++ handed

variable {q q' q'' : Queue α} {entering entering' handed handed' : List α}

theorem Plays.refl (q : Queue α) : Plays q q [] [] :=
  ⟨[], fun h same => ⟨same, by simp, by simp⟩⟩

theorem Plays.trans (first : Plays q q' entering handed) (last : Plays q' q'' entering' handed') :
    Plays q q'' (entering ++ entering') (handed ++ handed') := by
  obtain ⟨calls, played⟩ := first
  obtain ⟨calls', played'⟩ := last
  refine ⟨calls ++ calls', fun h same => ?_⟩
  obtain ⟨queue, enqueued, dequeued⟩ := played h same
  obtain ⟨queue', enqueued', dequeued'⟩ := played' _ queue
  rw [History.play_append]
  exact ⟨queue', by rw [enqueued', enqueued, List.append_assoc],
    by rw [dequeued', dequeued, List.append_assoc]⟩

/-- One call that returns nothing. -/
theorem Plays.silent (call : Call α) (f : Queue α → Queue α) (effect : ∀ h : History α,
    (h.after call).queue = f h.queue ∧ (h.after call).returned = h.returned) :
    Plays q (f q) call.enqueued?.toList [] := by
  refine ⟨[call], fun h same => ?_⟩
  obtain ⟨queue, returned⟩ := effect h
  exact ⟨queue.trans (congrArg f same), History.enqueued_after,
    by simp [History.dequeued, returned]⟩

/-- One call that returns. -/
theorem Plays.answered (call : Call α) (a : WaitResult α × Queue α)
    (effect : ∀ h : History α, h.queue = q → h.after call = h.answer a) :
    Plays q a.2 [] a.1.event?.toList := by
  refine ⟨[call], fun h same => ?_⟩
  have played : h.play [call] = h.answer a := effect h same
  rw [played]
  refine ⟨rfl, by simp [History.answer], ?_⟩
  cases found : a.1.event? <;> simp [History.dequeued, History.answer, found]

theorem plays_wait {a : WaitResult α × Queue α} (found : q.wait = some a) :
    Plays q a.2 [] a.1.event?.toList :=
  .answered .wait a fun h same => by simp [History.after, same, found]

theorem plays_tryDequeue (q : Queue α) :
    Plays q q.tryDequeue.2 [] q.tryDequeue.1.event?.toList :=
  .answered .tryDequeue q.tryDequeue fun h same => by simp [History.after, same]

theorem plays_waitFor (q : Queue α) (now : Instant) (limit : Duration) :
    Plays q (q.waitFor now limit).2 [] (q.waitFor now limit).1.event?.toList :=
  .answered (.waitFor now limit) _ fun h same => by simp [History.after, same]

theorem plays_enqueueTail (q : Queue α) (a : α) : Plays q (q.enqueueTail a) [a] [] :=
  .silent (.enqueueTail a) (·.enqueueTail a) fun _ => ⟨rfl, rfl⟩

theorem plays_enqueueHead (q : Queue α) (a : α) : Plays q (q.enqueueHead a) [a] [] :=
  .silent (.enqueueHead a) (·.enqueueHead a) fun _ => ⟨rfl, rfl⟩

/-- Taking events until there is none leaves an empty queue. -/
theorem plays_drain (q : Queue α) : Plays q q.clear [] q.events := by
  obtain ⟨events, aborted⟩ := q
  induction events with
  | nil => exact .refl _
  | cons a rest ih => exact (plays_tryDequeue ⟨a :: rest, aborted⟩).trans ih

/-- A look of a consumer is a wait, or the end of one that takes nothing. -/
theorem plays_look {c : Consumer} {a : WaitResult α × Queue α} (looked : look c q = some a) :
    Plays q a.2 [] a.1.event?.toList := by
  obtain ⟨_ | ⟨deadline, limit⟩, _ | _⟩ := c
  · exact plays_wait looked
  · exact plays_wait looked
  · obtain rfl : q.lastLook limit = a := Option.some.inj looked
    rw [Queue.lastLook_eq]
    cases found : q.wait with
    | none => exact .refl q
    | some answer => exact plays_wait found
  · exact plays_wait ((Queue.waitForLoop_nil limit q).symm.trans looked)

theorem plays_lookOut {now : Instant} {c : Consumer} {a : WaitResult α × Queue α}
    (looked : lookOut now c q = some a) : Plays q a.2 [] a.1.event?.toList := by
  unfold lookOut at looked
  split at looked
  · next answer found => exact plays_look (found.trans looked)
  · split at looked
    · exact plays_look looked
    · cases looked

theorem plays_lookAll (now : Instant) (q : Queue α) (consumers : List Consumer) :
    Plays q (lookAll now q consumers).1 []
      ((lookAll now q consumers).2.2.filterMap WaitResult.event?) := by
  induction consumers generalizing q with
  | nil => exact .refl q
  | cons c rest ih =>
    unfold lookAll
    split
    · split
      · next result left looked =>
        have played := (plays_lookOut looked).trans (ih left)
        cases found : result.event? <;> simpa [found] using played
      · exact ih q
    · exact ih q

theorem queue_fill (s : SharedQueue α) (values : List α) :
    Plays s.queue (values.foldl enqueueTail s).queue values [] := by
  induction values generalizing s with
  | nil => exact .refl _
  | cons a rest ih => exact (plays_enqueueTail s.queue a).trans (ih (s.enqueueTail a))

theorem plays_perform (s : SharedQueue α) (r : Request α) :
    Plays s.queue (s.perform r).1.queue r.entering
      ((s.perform r).2.1.handed ++ (s.perform r).2.2.filterMap WaitResult.event?) := by
  cases r with
  | tail a => exact plays_enqueueTail _ a
  | head a => exact plays_enqueueHead _ a
  | fill values => exact queue_fill s values
  | tryTake => simpa [perform, Response.handed, Request.entering] using plays_tryDequeue s.queue
  | wait =>
    simp only [perform]
    cases found : s.queue.wait with
    | none => exact .refl _
    | some a => simpa [found, Response.handed, Request.entering] using plays_wait found
  | waitFor limit =>
    simpa [perform, Response.handed, Request.entering] using plays_waitFor s.queue s.now limit
  | consumer => exact .refl _
  | consumerFor limit =>
    simp only [perform]
    cases s.now.add? limit <;> exact .refl _
  | expire d => exact .refl _
  | abort => exact .silent .abort Queue.abort fun _ => ⟨rfl, rfl⟩
  | reset => exact .silent .resetAbort Queue.resetAbort fun _ => ⟨rfl, rfl⟩
  | clear => exact .silent .clear Queue.clear fun _ => ⟨rfl, rfl⟩
  | drain => simpa [perform, Response.handed, Request.entering] using plays_drain s.queue
  | describe => exact .refl _

theorem plays_step (s : SharedQueue α) (r : Request α) :
    Plays s.queue (s.step r).1.queue r.entering
      ((s.step r).2.1.handed ++ (s.step r).2.2.filterMap WaitResult.event?) := by
  have played := (plays_perform s r).trans
    (plays_lookAll (s.perform r).1.now (s.perform r).1.queue (s.perform r).1.waiting)
  simpa [step, settle] using played

/-- Whatever is asked of a shared queue, its queue has the history of a single one. -/
theorem plays_serve (s : SharedQueue α) (requests : List (Request α)) :
    Plays s.queue (s.serve requests).1.queue (requests.flatMap Request.entering)
      (s.serve requests).2 := by
  induction requests generalizing s with
  | nil => exact .refl _
  | cons r rest ih =>
    rw [List.flatMap_cons]
    exact (plays_step s r).trans (ih _)

end SharedQueue
end EventEngine
