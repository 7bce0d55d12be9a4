import EventEngine.Proofs.Delivery
import EventEngine.Proofs.Sides.Parts

/-!
# Independent handlers

Where handlers, clocks and locks are divided into two sides and every dispatcher stays on its side,
nothing that is done on one side is noticed on the other. So operations on one side can be deleted
from a run. It is not enough that two handlers leave each other alone: a third one may pass on what
it is told.
-/
namespace EventEngine

variable {π : Type} {z : Sides} {s : Bool}

open Occurrence

namespace Operation

variable {op : Operation π}

def isAdvance : Operation π → Bool
  | .act (.advance _) => true
  | _ => false

/-- An operation belongs to one side, or it lets time pass for both. -/
def Placed (z : Sides) (op : Operation π) : Prop := (∃ s, op.Within z s) ∨ op.isAdvance = true

/-- Whether an operation is addressed to a handler: an action on it, the end of a waiting for its
exit, a section of a start of it, a move of its worker, or its release. -/
def addresses (g : HandlerId) : Operation π → Bool
  | .act action => action.target? = some g
  | .conclude (.exit h _ _) => h = g
  | .worker h | .beginStart h | .endStart h _ | .release h => h = g
  | _ => false

/-- What is addressed to a handler belongs to its side. -/
theorem Placed.within_of_addresses {g : HandlerId} (placed : op.Placed z)
    (addressed : op.addresses g = true) : op.Within z (z.handler g) := by
  rcases placed with ⟨t, within⟩ | time
  · suffices z.handler g = t from this ▸ within
    cases op with
    | act action => exact Action.handler_of_target within (of_decide_eq_true addressed)
    | conclude pause =>
      cases pause with
      | blocked => cases addressed
      | exit h exits destroys => exact of_decide_eq_true addressed ▸ within
    | worker h => exact of_decide_eq_true addressed ▸ within
    | beginStart h => exact of_decide_eq_true addressed ▸ within
    | endStart h c => exact of_decide_eq_true addressed ▸ within
    | release h => exact of_decide_eq_true addressed ▸ within
    | _ => cases addressed
  · unfold isAdvance at time
    split at time
    · cases addressed
    · cases time

instance (pause : Pause) : Decidable (pause.Within z s) :=
  match pause with
  | .blocked => .isTrue trivial
  | .exit h _ _ => inferInstanceAs (Decidable (z.handler h = s))

instance (op : Operation π) : Decidable (op.Within z s) :=
  match op with
  | .act action => inferInstanceAs (Decidable (action.within z s = true))
  | .conclude pause => inferInstanceAs (Decidable (pause.Within z s))
  | .worker h | .beginStart h | .endStart h _ | .release h =>
    inferInstanceAs (Decidable (z.handler h = s))
  | .timer c _ | .startClock c | .stopClock c | .addAlarm c _ | .addPeriodicAlarm c _
  | .removeAlarm c _ | .panicTimer c _ => inferInstanceAs (Decidable (z.clock c = s))
  | .lock l | .unlock l => inferInstanceAs (Decidable (z.lock l = s))

instance (op : Operation π) : Decidable (op.Placed z) := inferInstanceAs (Decidable (_ ∨ _))

end Operation

namespace World

variable {u v w : World π} {op : Operation π} {ops : List (Operation π)}

/-! ## One operation -/

theorem after_advance (time : op.isAdvance = true) :
    ∃ d, ∀ w : World π, w.after op = w.advance d := by
  unfold Operation.isAdvance at time
  split at time
  · next d => exact ⟨d, fun _ => rfl⟩
  · cases time

theorem Sided.after (sided : w.Sided z) (placed : op.Placed z) : (w.after op).Sided z := by
  rcases placed with ⟨t, within⟩ | time
  · unfold World.after
    cases operated : w.operate op with
    | none => exact sided
    | some result => exact (operate_confined within operated sided).1
  · obtain ⟨d, passed⟩ := after_advance time
    rw [passed]
    exact ⟨sided.handlers, sided.clocks⟩

/-- On one side nothing is noticed of an operation on the other. -/
theorem part_after_away (sided : w.Sided z) (away : op.Within z (!s)) :
    (w.after op).part z s = w.part z s := by
  unfold World.after
  cases operated : w.operate op with
  | none => rfl
  | some result =>
    have kept := (operate_confined away operated sided).2
    rwa [Bool.not_not] at kept

/-- What an operation does and answers on its side depends on this side only. -/
theorem after_part (sided : w.Sided z) (within : op.Within z s) :
    (w.part z s).after op = (w.after op).part z s ∧
      (w.part z s).outcome op = w.outcome op := by
  unfold World.after outcome
  rw [operate_part sided within]
  cases w.operate op <;> exact ⟨rfl, rfl⟩

/-- Worlds that agree on a side still do when the same is done in both. -/
theorem part_after_congr (sided : v.Sided z) (sided' : w.Sided z) (placed : op.Placed z)
    (same : v.part z s = w.part z s) : (v.after op).part z s = (w.after op).part z s := by
  rcases placed with ⟨t, within⟩ | time
  · by_cases near : t = s
    · subst near
      rw [← (after_part sided within).1, ← (after_part sided' within).1, same]
    · have away : op.Within z (!s) := by
        rwa [← Bool.eq_not.mpr near]
      rw [part_after_away sided away, part_after_away sided' away, same]
  · obtain ⟨d, passed⟩ := after_advance time
    have advanced : ∀ w : World π, (w.advance d).part z s = (w.part z s).advance d := fun _ => rfl
    rw [passed, passed, advanced, advanced, same]

/-! ## Operations in a row -/

/-- Operations on the other side can be deleted. -/
theorem part_afterAll (sided : v.Sided z) (sided' : w.Sided z) (same : v.part z s = w.part z s)
    (placed : ∀ op ∈ ops, op.Placed z) (deleted : Operation π → Bool)
    (away : ∀ op ∈ ops, deleted op = true → op.Within z (!s)) :
    (v.afterAll ops).Sided z ∧ (w.afterAll (ops.filter fun op => !deleted op)).Sided z ∧
      (v.afterAll ops).part z s =
        (w.afterAll (ops.filter fun op => !deleted op)).part z s := by
  induction ops generalizing v w with
  | nil => exact ⟨sided, sided', same⟩
  | cons op rest ih =>
    obtain ⟨first, placed⟩ := List.forall_mem_cons.mp placed
    obtain ⟨first_away, away⟩ := List.forall_mem_cons.mp away
    by_cases goes : deleted op = true
    · rw [List.filter_cons_of_neg (by simp [goes])]
      refine ih (sided.after first) sided' ?_ placed away
      rw [part_after_away sided (first_away goes), same]
    · rw [List.filter_cons_of_pos (by simp [goes])]
      exact ih (sided.after first) (sided'.after first)
        (part_after_congr sided sided' first same) placed away

/-- Nothing on a side tells two worlds apart: neither what is there, nor what has happened there,
nor how anything goes that is done there next. -/
structure AlikeOn (z : Sides) (s : Bool) (v w : World π) : Prop where
  now : w.now = v.now
  handlers (h : HandlerId) : z.handler h = s → w.handlers[h]? = v.handlers[h]?
  clocks (c : ClockId) : z.clock c = s → w.clock c = v.clock c
  locks (l : LockId) : z.lock l = s → w.holder l = v.holder l
  told : (w.history.filter fun o => z.occurrence o = s) =
    v.history.filter fun o => z.occurrence o = s
  outcomes (op : Operation π) : op.Within z s → w.outcome op = v.outcome op

theorem alikeOn_of_part (sided : v.Sided z) (sided' : w.Sided z)
    (same : v.part z s = w.part z s) : AlikeOn z s v w where
  now := (congrArg World.now same).symm
  handlers h near := by rw [← handlers_part near, ← same, handlers_part near]
  clocks c near := by rw [← clock_part near, ← same, clock_part near]
  locks l near := by rw [← holder_part near, ← same, holder_part near]
  told := (congrArg World.history same).symm
  outcomes op within := by
    rw [← (after_part sided within).2, same, (after_part sided' within).2]

theorem occurrence_of_milestone {o : Occurrence π} {h : HandlerId}
    (about : o.milestone? = some h) : z.occurrence o = z.handler h := by
  cases o <;> cases about <;> rfl

/-- So the story of every handler on the side is the same. -/
theorem AlikeOn.story {h : HandlerId} (alike : AlikeOn z s v w) (near : z.handler h = s) :
    w.story h = v.story h := by
  have told : ∀ w : World π, w.story h =
      (w.history.filter fun o => z.occurrence o = s).filter (·.milestone? = some h) := by
    intro w
    rw [World.story, List.filter_filter]
    refine List.filter_congr fun o _ => ?_
    by_cases about : o.milestone? = some h
    · simp [about, occurrence_of_milestone about, near]
    · simp [about]
  rw [told, told, alike.told]

/-- What the handlers on one side do makes no difference to those on the other. Handlers, clocks and
locks are divided into two sides such that every dispatcher stays on its side and every operation of
a run belongs to one side, or lets time pass outside. Then operations on one side can be deleted, as
all that are addressed to one of its handlers: at each moment of the run what is on the other side
is the same, the same has happened there, and what is done there next is answered the same. -/
theorem independent (sided : w.Sided z) (placed : ∀ op ∈ ops, op.Placed z)
    (deleted : Operation π → Bool)
    (away : ∀ op ∈ ops, deleted op = true → op.Within z (!s)) :
    ∀ before, before <+: ops →
      AlikeOn z s (w.afterAll before) (w.afterAll (before.filter fun op => !deleted op)) ∧
      ∀ h, z.handler h = s →
        (w.afterAll (before.filter fun op => !deleted op)).story h =
          (w.afterAll before).story h := by
  intro before le
  obtain ⟨sided', sided'', same⟩ := part_afterAll sided sided (s := s) rfl
    (fun op member => placed op (le.subset member)) deleted
    (fun op member => away op (le.subset member))
  have alike := alikeOn_of_part sided' sided'' same
  exact ⟨alike, fun h near => alike.story near⟩

/-- Handler 0 is given a timeout and a flood of events, its dispatcher panics, and it is stopped and
destroyed. Without all this, handler 1 times out and dispatches its event just the same. -/
theorem timeout_beside_panic :
    let w₀ : World Nat := {
      clocks := [{}, {}]
      handlers := [
        { config := { name := "a" }, types := .ofList [⟨"A", "a"⟩], clock := some 0 },
        { config := { name := "b" }, types := .ofList [⟨"B", "b"⟩], clock := some 1 }] }
    let z : Sides := ⟨(· == 1), (· == 1), fun _ => true⟩
    let ops : List (Operation Nat) := [.act (.setTimeout 0 (.ofParts 1 0) 0 []),
      .act (.setTimeout 1 (.ofParts 2 0) 0 [.pending 1]), .act (.start 0), .act (.start 1),
      .act (.signal 0 .tail "A" 1 [.clear 0, .panic]), .act (.signal 1 .tail "B" 2 [.isRunning 1]),
      .worker 1, .worker 0, .worker 1, .worker 0, .worker 1, .worker 0, .worker 0, .worker 1,
      .act (.advance (.ofParts 2 0)), .timer 0 0, .timer 1 0, .act (.stop 0), .act (.destroy 0),
      .timer 0 0, .timer 1 0, .worker 1, .timer 0 0, .timer 1 0, .worker 1, .worker 1, .worker 1]
    let rest := ops.filter fun op => !op.addresses 0
    let u := w₀.afterAll ops
    let u' := w₀.afterAll rest
    AlikeOn z true u u' ∧ (u.handlers[0]?).map (·.isDestroyed) = some true ∧
      (u'.handlers[0]?).map (·.isDestroyed) = some false ∧
      (u'.handlers[1]?).map (fun x => (x.metrics.dispatched, x.metrics.timeouts)) =
        some (1, 1) := by
  intro w₀ z ops rest u u'
  have fresh : Fresh w₀ := by
    refine fresh_of_handlers 2 0 fun x hx => ?_
    rcases List.mem_pair.mp hx with rfl | rfl <;> exact ⟨_, _, _, _, _, _, rfl⟩
  have sided : w₀.Sided z := by
    refine fresh.sided fun h x hx => ?_
    rcases h with _ | _ | h <;> cases hx <;> exact ⟨nofun, rfl⟩
  have placed : ∀ op ∈ ops, op.Placed z := by decide +kernel
  have away : ∀ op ∈ ops, op.addresses 0 = true → op.Within z (!true) := fun op member addressed =>
    (placed op member).within_of_addresses addressed
  have alike := independent sided placed (·.addresses 0) away ops List.prefix_rfl
  exact ⟨alike.1, by decide +kernel, by decide +kernel, by decide +kernel⟩

/-- Handlers 0 and 2 share neither a lock nor a clock, and the dispatcher of neither operates on the
other or lets time pass. But the dispatcher of handler 0 signals an event to handler 1, whose
dispatcher signals one to handler 2. -/
theorem news_passed_on :
    let w₀ : World Nat := {
      clocks := [{}, {}, {}]
      handlers := [
        { config := { name := "a" }, types := .ofList [⟨"A", "a"⟩], clock := some 0 },
        { config := { name := "b" }, types := .ofList [⟨"B", "b"⟩], clock := some 1 },
        { config := { name := "c" }, types := .ofList [⟨"C", "c"⟩], clock := some 2 }] }
    let ops : List (Operation Nat) := [.act (.start 2), .act (.start 1), .act (.start 0),
      .act (.signal 0 .tail "A" 1 [.signal 1 .tail "B" 2 [.signal 2 .tail "C" 3 []]]),
      .worker 0, .worker 0, .worker 0, .worker 0, .worker 1, .worker 1, .worker 1, .worker 1,
      .worker 2, .worker 2, .worker 2]
    let u := w₀.afterAll ops
    let u' := w₀.afterAll (ops.filter fun op => !op.addresses 0)
    let performed (h : HandlerId) := (dispatched (u.story h)).flatMap (·.body.script)
    Fresh w₀ ∧ (performed 0).map Action.target? = [some 1] ∧ performed 2 = [] ∧
      (u.handlers[2]?).map (·.metrics.dispatched) = some 1 ∧
      (u'.handlers[2]?).map (·.metrics.dispatched) = some 0 := by
  intro w₀ ops u u' performed
  refine ⟨?_, by decide +kernel, ?_, by decide +kernel, by decide +kernel⟩
  · refine fresh_of_handlers 3 0 fun x hx => ?_
    simp only [List.mem_cons, List.not_mem_nil, or_false] at hx
    rcases hx with rfl | rfl | rfl <;> exact ⟨_, _, _, _, _, _, rfl⟩
  · exact List.length_eq_zero_iff.mp (by decide +kernel)

end World
end EventEngine
