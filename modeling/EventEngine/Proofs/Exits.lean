import EventEngine.Proofs.DispatchOrder
import EventEngine.Proofs.StopBarrier

/-!
# When a worker is gone

A worker goes only by its exit, which is counted. So whoever waits for the count to change waits for
the worker to be gone, and if a stop was pending on it, nothing is left on the queue then but what
has been queued since. The handler stays without a worker until one is started.
-/
namespace EventEngine

variable {π : Type} {h : HandlerId}

open Occurrence

namespace Handler

variable {x x' : Handler π} {notes : List (Occurrence π)}

/-- What is queued, and what the worker waits for the lock with. -/
def unserved (x : Handler π) : List (Record π) := x.waiting.toList ++ x.queue.events

@[simp] theorem unserved_outline (x : Handler π) : x.outline.unserved = x.unserved := by
  rw [unserved, waiting_outline]
  rfl

theorem waiting_exit (x : Handler π) : x.exit.waiting = none := by simp [waiting]

theorem unserved_exit_subset (x : Handler π) : x.exit.unserved ⊆ x.unserved := by
  have fewer : x.exit.queue.events ⊆ x.queue.events := by
    unfold exit
    split
    · exact List.nil_subset _
    · exact List.Subset.refl _
  rw [unserved, waiting_exit]
  exact List.subset_append_of_subset_right _ fewer

theorem unserved_exit (asked : x.stopRequested = true) : x.exit.unserved = [] := by
  rw [unserved, waiting_exit, exit, if_pos asked]
  rfl

/-- Whatever is unserved was unserved, or it has just been accepted. -/
theorem Turn.unserved (turn : Turn h x notes x') {record : Record π}
    (member : record ∈ x'.unserved) : record ∈ x.unserved ∨ record ∈ accepted notes := by
  cases turn with
  | enqueue place body _ =>
    cases place <;>
      simpa [Handler.unserved, waiting, Handler.enqueue, accepted?, or_assoc, or_comm,
        or_left_comm] using member
  | clear _ =>
    have held : record ∈ x.waiting.toList := by
      simpa [Handler.unserved, waiting, Handler.clear] using member
    exact .inl (List.mem_append_left _ held)
  | start id idle _ =>
    have queued : record ∈ x.queue.events := by
      simpa [Handler.unserved, waiting, startedWith, armedWith, launch, prepare] using member
    exact .inl (List.mem_append_right _ queued)
  | refuse idle _ =>
    have queued : record ∈ x.queue.events := by
      simpa [Handler.unserved, waiting, startRefused, prepare, idle] using member
    exact .inl (List.mem_append_right _ queued)
  | crash id idle _ =>
    have queued : record ∈ x.queue.events := by
      simpa [Handler.unserved, waiting, armedWith, prepare, idle] using member
    exact .inl (List.mem_append_right _ queued)
  | take next rest idle queued =>
    exact .inl (by simpa [Handler.unserved, waiting, idle, queued] using member)
  | «begin» next since holding =>
    exact .inl (List.mem_append_right _ (by simpa [Handler.unserved, waiting] using member))
  | finish next since elapsed dispatching =>
    have queued : record ∈ x.queue.events := by
      simpa [Handler.unserved, waiting, recordDispatch] using member
    exact .inl (List.mem_append_right _ queued)
  | panic next since _ => exact .inl (unserved_exit_subset x member)
  | leave _ _ => exact .inl (unserved_exit_subset x member)
  | _ => exact .inl member

/-- A worker leaves, or it goes on, and then a stop that is pending stays so. -/
theorem Turn.leaves_or_stays (turn : Turn h x notes x') (running : x.isRunning = true) :
    x' = x.exit ∨ x'.exits = x.exits ∧ x'.isRunning = true ∧
      (x.stopRequested = true → x'.stopRequested = true) := by
  have present : x.worker ≠ none := by
    intro absent
    simp [isRunning, absent] at running
  cases turn with
  | enqueue place body _ => cases place <;> exact .inr ⟨rfl, running, id⟩
  | start _ idle _ => exact absurd idle present
  | refuse idle _ => exact absurd idle present
  | crash _ idle _ => exact absurd idle present
  | requestStop _ => exact .inr ⟨rfl, running, fun _ => rfl⟩
  | take _ _ _ _ => exact .inr ⟨rfl, rfl, id⟩
  | «begin» _ _ _ => exact .inr ⟨rfl, rfl, id⟩
  | finish _ _ _ _ => exact .inr ⟨rfl, rfl, id⟩
  | panic _ _ _ => exact .inl rfl
  | leave _ _ => exact .inl rfl
  | _ => exact .inr ⟨rfl, running, id⟩

/-- Where there is a worker, no start comes to the making of one. -/
theorem Turn.unlaunched (turn : Turn h x notes x') (running : x.isRunning = true) :
    notes.countP isLaunch = 0 := by
  cases turn with
  | start _ idle _ => simp [isRunning, idle] at running
  | crash _ idle _ => simp [isRunning, idle] at running
  | panic _ _ _ => simp [List.countP_append, isLaunch]
  | leave _ _ => exact countP_isLaunch_exitStory
  | _ => rfl

/-- No worker comes but by a start. -/
theorem Turn.vacant (turn : Turn h x notes x') (unstarted : notes.countP isStarted = 0)
    (vacant : x.isRunning = false) : x'.isRunning = false := by
  have absent : ∀ worker, x.worker ≠ some worker := by
    intro worker present
    simp [isRunning, present] at vacant
  cases turn with
  | enqueue place _ _ => cases place <;> exact vacant
  | start _ _ _ => simp [isStarted] at unstarted
  | take _ _ idle _ => exact absurd idle (absent _)
  | «begin» _ _ holding => exact absurd holding (absent _)
  | finish _ _ _ dispatching => exact absurd dispatching (absent _)
  | panic _ _ _ => exact isRunning_exit
  | leave _ _ => exact isRunning_exit
  | _ => exact vacant

end Handler

namespace World

variable {u v w : World π} {x : Handler π} {p : Record π → Bool}

/-- The handler has no worker. -/
def Vacant (w : World π) (h : HandlerId) : Prop :=
  ∀ x, w.outline? h = some x → x.isRunning = false

theorem Vacant.run (vacant : v.Vacant h) (run : Run v w) (same : w.startups h = v.startups h) :
    w.Vacant h := by
  induction run with
  | refl => exact vacant
  | @tail u w before step ih =>
    have le := Run.startups_le (h := h) before
    have le' := Run.startups_le (h := h) (.single step)
    have vacant' := ih (by omega)
    rcases step.evolves h with still | ⟨x, notes, x', outlined, turn, outlined', told⟩
    · intro y outlined
      exact vacant' y (still.1.symm.trans outlined)
    · have unstarted : notes.countP isStarted = 0 := by
        have more : w.startups h = notes.countP isStarted + u.startups h := by
          rw [World.startups, told, List.countP_append, World.startups]
        omega
      intro y outlined''
      obtain rfl := Option.some.inj (outlined'.symm.trans outlined'')
      exact turn.vacant unstarted (vacant' x outlined)

theorem Vacant.served (vacant : w.Vacant h) : w.served h = dispatched (w.story h) := by
  unfold World.served
  cases outlined : w.outline? h with
  | none => simp
  | some x =>
    have absent : x.worker = none := by simpa [Handler.isRunning] using vacant x outlined
    simp [Handler.waiting, absent]

theorem Vacant.doomed (vacant : w.Vacant h) : w.Doomed h := fun x outlined running =>
  absurd ((vacant x outlined).symm.trans running) nofun

theorem Vacant.absurd (vacant : v.Vacant h) (hx : v.handlers[h]? = some x)
    (running : x.isRunning = true) : False := by
  have idle := vacant x.outline (outline?_eq_some.mpr ⟨x, hx, rfl⟩)
  rw [x.isRunning_outline, running] at idle
  cases idle

/-- A worker on which a stop is pending is still there, or at some moment it has left. Until then no
other worker is started. -/
theorem Run.stays_or_leaves (run : Run v w) (hx : v.outline? h = some x)
    (running : x.isRunning = true) (asked : x.stopRequested = true) :
    (∃ y, w.outline? h = some y ∧ y.exits = x.exits ∧ y.isRunning = true ∧
      y.stopRequested = true ∧ w.launches h = v.launches h) ∨
    ∃ (u u' : World π) (z : Handler π), Run v u ∧ Next u u' ∧ Run u' w ∧
      u'.launches h = v.launches h ∧ u.outline? h = some z ∧ z.isRunning = true ∧
      z.stopRequested = true ∧ u'.outline? h = some z.exit := by
  induction run with
  | refl => exact .inl ⟨x, hx, rfl, running, asked, rfl⟩
  | @tail u w before step ih =>
    rcases ih with ⟨y, hy, exits, running', asked', same⟩ | ⟨t, t', z, first, leaves, rest, left⟩
    · rcases step.evolves h with still | ⟨y', notes, z, hy', turn, hz, told⟩
      · exact .inl ⟨y, still.1.trans hy, exits, running', asked', still.launches.trans same⟩
      · obtain rfl := Option.some.inj (hy.symm.trans hy')
        have same' : w.launches h = v.launches h := by
          rw [World.launches, told, List.countP_append, turn.unlaunched running', Nat.zero_add]
          exact same
        rcases turn.leaves_or_stays running' with rfl | ⟨exits', running'', kept⟩
        · exact .inr ⟨u, w, y, before, step, .refl, same', hy, running', asked', hz⟩
        · exact .inl ⟨z, hz, exits'.trans exits, running'', kept asked', same'⟩
    · exact .inr ⟨t, t', z, first, leaves, rest.tail step, left⟩

theorem Run.countP_accepted_le (run : Run v w) :
    (accepted (v.story h)).countP p ≤ (accepted (w.story h)).countP p := by
  obtain ⟨notes, told⟩ := Run.story_append (h := h) run
  simp [told, accepted]

/-- If nothing of some kind is unserved and nothing of it is accepted, nothing of it gets there. -/
theorem Run.unserved (run : Run v w) (hx : v.outline? h = some x)
    (clean : ∀ record ∈ x.unserved, p record = false)
    (quiet : (accepted (w.story h)).countP p = (accepted (v.story h)).countP p) :
    ∃ y, w.outline? h = some y ∧ ∀ record ∈ y.unserved, p record = false := by
  induction run with
  | refl => exact ⟨x, hx, clean⟩
  | @tail u w before step ih =>
    have earlier := Run.countP_accepted_le (h := h) (p := p) before
    rcases step.evolves h with ⟨same, told⟩ | ⟨y, notes, z, hy, turn, hz, told⟩
    · rw [told] at quiet
      obtain ⟨y, hy, clean'⟩ := ih quiet
      exact ⟨y, same.trans hy, clean'⟩
    · have split : accepted (notes ++ u.story h) = accepted (u.story h) ++ accepted notes := by
        simp [accepted]
      rw [told, split, List.countP_append] at quiet
      have fresh : (accepted notes).countP p = 0 := by omega
      obtain ⟨y', hy', clean'⟩ := ih (by omega)
      obtain rfl := Option.some.inj (hy.symm.trans hy')
      refine ⟨z, hz, fun record member => ?_⟩
      rcases turn.unserved member with kept | joined
      · exact clean' record kept
      · exact (Bool.not_eq_true _).mp (List.countP_eq_zero.mp fresh record joined)

end World
end EventEngine
