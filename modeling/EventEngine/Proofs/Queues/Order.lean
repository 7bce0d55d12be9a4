import EventEngine.Proofs.Queues.Shared

/-!
# Order, conservation and aborts

Every value that is enqueued is dequeued once, or dropped once, or pending. Values may repeat, so
each is marked with the number of the call that enqueues it; the marks change nothing. An abort
changes only what the waits return while it is outstanding.
-/
namespace EventEngine

variable {α β : Type}

namespace WaitResult

def map (f : α → β) : WaitResult α → WaitResult β
  | .event a => .event (f a)
  | .failed error => .failed error
  | .overflow => .overflow

def isAborted : WaitResult α → Bool
  | .failed .waitAbort => true
  | _ => false

end WaitResult

namespace Queue

def map (f : α → β) (q : Queue α) : Queue β := { q with events := q.events.map f }

theorem tryDequeue_map (q : Queue α) (f : α → β) :
    (q.map f).tryDequeue = (q.tryDequeue.1.map f, q.tryDequeue.2.map f) := by
  obtain ⟨events, aborted⟩ := q
  cases events <;> rfl

theorem wait_map (q : Queue α) (f : α → β) :
    (q.map f).wait = q.wait.map fun a => (a.1.map f, a.2.map f) := by
  obtain ⟨events, aborted⟩ := q
  cases aborted <;> cases events <;> rfl

theorem waitFor_map (q : Queue α) (f : α → β) (now : Instant) (limit : Duration) :
    (q.map f).waitFor now limit =
      ((q.waitFor now limit).1.map f, (q.waitFor now limit).2.map f) := by
  simp only [waitFor_eq, wait_map]
  cases now.add? limit with
  | none => rfl
  | some deadline => cases q.wait <;> rfl

theorem resetAbort_of_not_aborted {q : Queue α} (unaborted : q.aborted = false) :
    q.resetAbort = q := by
  rw [resetAbort, ← unaborted]

namespace Call

def map (f : α → β) : Call α → Call β
  | .enqueueTail a => .enqueueTail (f a)
  | .enqueueHead a => .enqueueHead (f a)
  | .tryDequeue => .tryDequeue
  | .wait => .wait
  | .waitFor now limit => .waitFor now limit
  | .abort => .abort
  | .resetAbort => .resetAbort
  | .clear => .clear

def waits : Call α → Bool
  | .wait => true
  | .waitFor _ _ => true
  | _ => false

/-- Whether a call is a wait that looks at the queue. One whose end cannot be represented does
not. -/
def looks : Call α → Bool
  | .wait => true
  | .waitFor now limit => (now.add? limit).isSome
  | _ => false

theorem waits_of_looks {call : Call α} (looks : call.looks = true) : call.waits = true := by
  cases call with
  | wait | waitFor _ _ => rfl
  | _ => cases looks

theorem enqueued?_map (f : α → β) (call : Call α) :
    (call.map f).enqueued? = call.enqueued?.map f := by
  cases call <;> rfl

theorem map_snd_map (n : Nat) (call : Call α) : (call.map (n, ·)).map Prod.snd = call := by
  cases call <;> rfl

end Call

/-- Mark each call's event with a number, counting on from `n`. -/
def numberedFrom (n : Nat) : List (Call α) → List (Call (Nat × α))
  | [] => []
  | call :: calls => call.map (n, ·) :: numberedFrom (n + 1) calls

/-- Mark the event of each call with the call's number. -/
def numbered (calls : List (Call α)) : List (Call (Nat × α)) := numberedFrom 0 calls

theorem numberedFrom_map_snd (n : Nat) (calls : List (Call α)) :
    (numberedFrom n calls).map (·.map Prod.snd) = calls := by
  induction calls generalizing n with
  | nil => rfl
  | cons call calls ih => rw [numberedFrom, List.map_cons, ih, Call.map_snd_map]

/-- The marks go up. -/
theorem numberedFrom_pairwise (n : Nat) (calls : List (Call α)) :
    (∀ x ∈ (numberedFrom n calls).filterMap Call.enqueued?, n ≤ x.1) ∧
      ((numberedFrom n calls).filterMap Call.enqueued?).Pairwise (·.1 < ·.1) := by
  induction calls generalizing n with
  | nil => exact ⟨nofun, .nil⟩
  | cons call calls ih =>
    obtain ⟨above, increasing⟩ := ih (n + 1)
    have later : ∀ x ∈ (numberedFrom (n + 1) calls).filterMap Call.enqueued?, n < x.1 := above
    rw [numberedFrom, List.filterMap_cons, Call.enqueued?_map]
    cases call.enqueued? with
    | none => exact ⟨fun x member => Nat.le_of_lt (later x member), increasing⟩
    | some a =>
      refine ⟨fun x member => ?_, increasing.cons later⟩
      rcases List.mem_cons.mp member with rfl | member
      · exact Nat.le_refl n
      · exact Nat.le_of_lt (later x member)

/-- Leave out the aborts, their resets, and the waits that look at the queue while an abort is
outstanding. -/
def undisturbed (aborted : Bool) : List (Call α) → List (Call α)
  | [] => []
  | .abort :: calls => undisturbed true calls
  | .resetAbort :: calls => undisturbed false calls
  | call :: calls =>
    if aborted && call.looks then undisturbed aborted calls else call :: undisturbed aborted calls

namespace History

def map (f : α → β) (h : History α) : History β where
  queue := h.queue.map f
  enqueued := h.enqueued.map f
  returned := h.returned.map (WaitResult.map f)
  dropped := h.dropped.map f

def calm (h : History α) : History α :=
  { h with queue := h.queue.resetAbort, returned := h.returned.filter (!·.isAborted) }

variable {f : α → β} {h : History α} {call : Call α}

theorem answer_map (a : WaitResult α × Queue α) :
    (h.map f).answer (a.1.map f, a.2.map f) = (h.answer a).map f := by
  simp [answer, map]

/-- The calls treat all events alike. -/
theorem after_map (f : α → β) (h : History α) (call : Call α) :
    (h.map f).after (call.map f) = (h.after call).map f := by
  cases call with
  | enqueueTail a => simp [after, map, Call.map, Queue.map, Queue.enqueueTail]
  | enqueueHead a => simp [after, map, Call.map, Queue.map, Queue.enqueueHead]
  | tryDequeue => exact (congrArg _ (h.queue.tryDequeue_map f)).trans (answer_map _)
  | wait =>
    simp only [after, Call.map]
    rw [show (h.map f).queue = h.queue.map f from rfl, wait_map]
    cases h.queue.wait with
    | none => rfl
    | some a => exact answer_map a
  | waitFor now limit =>
    exact (congrArg _ (h.queue.waitFor_map f now limit)).trans (answer_map _)
  | abort => rfl
  | resetAbort => rfl
  | clear => simp [after, map, Call.map, Queue.map, Queue.clear]

theorem play_map (f : α → β) (h : History α) (calls : List (Call α)) :
    (h.map f).play (calls.map (·.map f)) = (h.play calls).map f := by
  induction calls generalizing h with
  | nil => rfl
  | cons call calls ih => rw [List.map_cons, play_cons, after_map, ih, play_cons]

/-- While an abort is outstanding the waits take nothing; those that look at the queue fail. -/
theorem after_of_aborted (aborted : h.queue.aborted = true) (waits : call.waits = true) :
    h.after call = { h with returned :=
      h.returned ++ [if call.looks then .failed .waitAbort else .overflow] } := by
  have found : h.queue.wait = some (.failed .waitAbort, h.queue) := by
    simp [Queue.wait, aborted]
  cases call with
  | wait => simp [after, found, answer, Call.looks]
  | waitFor now limit =>
    cases ends : now.add? limit <;>
      simp [after, Queue.waitFor_eq, Call.looks, ends, found, answer]
  | _ => cases waits

/-- Only an abort and its reset change the flag. -/
theorem aborted_after (sets : call ≠ .abort ∧ call ≠ .resetAbort) :
    (h.after call).queue.aborted = h.queue.aborted := by
  have change := h.change call
  generalize h.after call = h' at change
  cases change with
  | abort => exact absurd rfl sets.1
  | resetAbort => exact absurd rfl sets.2
  | _ => rfl

theorem calm_answer {a : WaitResult α × Queue α} (unaborted : a.1.isAborted = false) :
    (h.answer a).calm = h.calm.answer (a.1, a.2.resetAbort) := by
  simp [answer, calm, unaborted]

theorem calm_answer_wait {a : WaitResult α × Queue α} (unaborted : h.queue.aborted = false)
    (found : h.queue.wait = some a) : (h.answer a).calm = h.calm.answer a := by
  rcases h.queue.wait_cases with ⟨aborted, -⟩ | ⟨-, -, blocks⟩ | ⟨b, rest, -, -, takes⟩
  · cases unaborted.symm.trans aborted
  · cases found.symm.trans blocks
  · cases found.symm.trans takes
    refine (calm_answer rfl).trans (congrArg h.calm.answer ?_)
    exact Prod.ext rfl (resetAbort_of_not_aborted unaborted)

/-- A call that is not a failing wait does the same without the aborts. -/
theorem calm_after (sets : call ≠ .abort ∧ call ≠ .resetAbort)
    (heeds : (h.queue.aborted && call.looks) = false) :
    (h.after call).calm = h.calm.after call := by
  cases call with
  | enqueueTail a => rfl
  | enqueueHead a => rfl
  | tryDequeue =>
    have unaborted : h.queue.tryDequeue.1.isAborted = false := by
      unfold Queue.tryDequeue
      split <;> rfl
    refine (calm_answer unaborted).trans (congrArg h.calm.answer ?_)
    simp only [calm, Queue.tryDequeue, events_resetAbort]
    split <;> rfl
  | wait =>
    have unaborted : h.queue.aborted = false := by simpa [Call.looks] using heeds
    have same : h.calm.queue = h.queue := resetAbort_of_not_aborted unaborted
    simp only [after, same]
    cases found : h.queue.wait with
    | none => rfl
    | some a => exact calm_answer_wait unaborted found
  | waitFor now limit =>
    simp only [after, Queue.waitFor_eq]
    cases ends : now.add? limit with
    | none => exact calm_answer rfl
    | some deadline =>
      have unaborted : h.queue.aborted = false := by simpa [Call.looks, ends] using heeds
      have same : h.calm.queue = h.queue := resetAbort_of_not_aborted unaborted
      simp only [same]
      cases found : h.queue.wait with
      | none => exact (calm_answer rfl).trans (congrArg h.calm.answer (Prod.ext rfl same))
      | some a => exact calm_answer_wait unaborted found
  | abort => exact absurd rfl sets.1
  | resetAbort => exact absurd rfl sets.2
  | clear => rfl

/-- A step of the run without the aborts, for a call that does not set the flag. -/
theorem calm_step {calls : List (Call α)} (sets : call ≠ .abort ∧ call ≠ .resetAbort)
    (ih : ((h.after call).play calls).calm =
      (h.after call).calm.play (undisturbed (h.after call).queue.aborted calls)) :
    ((h.after call).play calls).calm = h.calm.play (if h.queue.aborted && call.looks then
      undisturbed h.queue.aborted calls else call :: undisturbed h.queue.aborted calls) := by
  rw [ih, aborted_after sets]
  split
  · next fails =>
    obtain ⟨aborted, looks⟩ := Bool.and_eq_true_iff.mp fails
    rw [after_of_aborted aborted (Call.waits_of_looks looks)]
    simp [calm, looks, WaitResult.isAborted]
  · next heeds =>
    rw [play_cons, calm_after sets (Bool.eq_false_iff.mpr heeds)]

/-- The aborts and the waits that fail because of them can be left out. -/
theorem calm_play (h : History α) (calls : List (Call α)) :
    (h.play calls).calm = h.calm.play (undisturbed h.queue.aborted calls) := by
  induction calls generalizing h with
  | nil => rfl
  | cons call calls ih =>
    cases call with
    | abort => exact ih (h.after .abort)
    | resetAbort => exact ih (h.after .resetAbort)
    | _ => exact calm_step ⟨nofun, nofun⟩ (ih _)

end History

open History

theorem enqueued_numbered_nodup (calls : List (Call α)) :
    (history (numbered calls)).enqueued.Nodup := by
  rw [history, enqueued_play, List.nil_append]
  refine (numberedFrom_pairwise 0 calls).2.imp fun {x y} less => ?_
  rintro rfl
  exact Nat.lt_irrefl _ less

/-- What is enqueued on a queue is dequeued once, dropped once, or pending. Of two values that are
dequeued the one enqueued later comes out first just if it was put at the head while the other one
was pending. While an abort is outstanding the waits take nothing, and without the aborts and the
waits that they made fail everything else would have been answered as it was. Whatever is asked of a
shared queue, and whoever waits on it, it comes to such calls. -/
theorem conserved_in_order (calls : List (Call α)) :
    let past := history (numbered calls)
    let calm := history (undisturbed false calls)
    past.map Prod.snd = history calls ∧
    (past.enqueued.Nodup ∧
      past.enqueued.Perm (past.queue.events ++ past.dequeued ++ past.dropped)) ∧
    (∀ x y, [x, y].Sublist past.enqueued → x ∈ past.dequeued → y ∈ past.dequeued →
      ([y, x].Sublist past.dequeued ↔ ∃ before after,
        numbered calls = before ++ .enqueueHead y :: after ∧ x ∈ (history before).queue.events)) ∧
    ((history calls).queue.aborted = true → ∀ call : Call α, call.waits = true →
      (history calls).after call = { history calls with returned :=
        (history calls).returned ++ [if call.looks then .failed .waitAbort else .overflow] }) ∧
    (calm.queue.events = (history calls).queue.events ∧ calm.enqueued = (history calls).enqueued ∧
      calm.dropped = (history calls).dropped ∧
      calm.returned = (history calls).returned.filter (!·.isAborted)) ∧
    ∀ requests : List (SharedQueue.Request α), ∃ played : List (Call α),
      (history played).queue = (({} : SharedQueue α).serve requests).1.queue ∧
      (history played).enqueued = requests.flatMap SharedQueue.Request.entering ∧
      (history played).dequeued = (({} : SharedQueue α).serve requests).2 := by
  intro past calm
  have nodup : past.enqueued.Nodup := enqueued_numbered_nodup calls
  refine ⟨?_, ⟨nodup, balanced_history _⟩, ?_, fun aborted call => after_of_aborted aborted, ?_, ?_⟩
  · have played := play_map Prod.snd {} (numbered calls)
    rw [numbered, numberedFrom_map_snd] at played
    exact played.symm
  · exact fun x y ordered hx hy => dequeued_first_iff nodup ordered hx hy
  · have same : (history calls).calm = calm := calm_play {} calls
    rw [← same]
    exact ⟨rfl, rfl, rfl, rfl⟩
  · intro requests
    obtain ⟨played, effect⟩ := SharedQueue.plays_serve ({} : SharedQueue α) requests
    obtain ⟨queue, enqueued, dequeued⟩ := effect {} rfl
    exact ⟨played, queue, enqueued, dequeued⟩

/-- A value is put ahead of an equal one that is pending, and a wait fails in between. The wait
after the reset takes the later one, which is the one that it would have taken. -/
theorem equal_value_overtakes :
    let calls : List (Call String) := [.enqueueTail "a", .enqueueHead "a", .abort, .wait,
      .resetAbort, .wait, .tryDequeue, .enqueueTail "b", .clear]
    [(1, "a"), (0, "a")].Sublist (history (numbered calls)).dequeued ∧
    (history (undisturbed false calls)).returned = [.event "a", .event "a"] := by
  intro calls
  obtain ⟨-, -, order, -, ⟨-, -, -, calm⟩, -⟩ := conserved_in_order calls
  have first := order (0, "a") (1, "a") (by decide +kernel) (by decide +kernel) (by decide +kernel)
  have pending : (0, "a") ∈ (history [.enqueueTail (0, "a")]).queue.events := by decide +kernel
  exact ⟨first.mpr ⟨[.enqueueTail (0, "a")], _, rfl, pending⟩, calm.trans (by decide +kernel)⟩

end Queue
end EventEngine
