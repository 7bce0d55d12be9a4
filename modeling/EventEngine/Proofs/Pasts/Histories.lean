import EventEngine.Proofs.Pasts.Moves
import EventEngine.Proofs.Pasts.Renewed

/-!
# Nothing depends on what has happened

What happens in a world is noted and never looked at. So two worlds that differ only in what has
happened before do the same from then on.
-/
namespace EventEngine

variable {π : Type}

namespace Past

/-- A past that has left nothing but its history. -/
def told (history : List (Occurrence π)) : Past π where
  residue _ := {}
  owner _ _ := none
  history := history

variable (history : List (Occurrence π)) (h : HandlerId)

theorem record_told : (told history).record h = id :=
  funext fun r => congrArg (Record.mk · r.body) (Nat.zero_add _)

theorem pause_told : (told history).pause = id := by
  funext pause
  cases pause with
  | blocked => rfl
  | exit g exits destroys => exact congrArg (Pause.exit g · destroys) (Nat.zero_add _)

theorem worker_told : (told history).worker h = id := by
  funext worker
  cases worker with
  | idle => rfl
  | holding r => simp only [worker, record_told, id]
  | dispatching r since script pause =>
    simp only [worker, record_told, pause_told, Option.map_id, id]

theorem handler_told : (told history).handler h = id := by
  funext x
  have left : (told history).residue h = {} := rfl
  simp only [handler, queue, record_told, worker_told, List.map_id, Option.map_id, left,
    Nat.zero_add, Metrics.new_plus, id]

theorem occurrence_told : (told history).occurrence = id := by
  funext o
  cases o <;> simp only [occurrence, record_told, List.map_id, id]

/-- The world whose history goes further back. -/
theorem world_told (w : World π) :
    (told history).world w = { w with history := w.history ++ history } := by
  have clocks : (w.clocks.mapIdx fun c k => k.map ((told history).callback c)) = w.clocks := by
    have unchanged : ∀ c (k : Clock AlarmOwner), k.map ((told history).callback c) = k :=
      fun c k => Clock.map_eq_self (fun _ _ => rfl) fun _ _ => rfl
    exact List.ext_getElem? fun c => by simp [unchanged]
  have handlers : w.handlers.mapIdx (told history).handler = w.handlers :=
    List.ext_getElem? fun h => by simp [handler_told]
  simp only [world, clocks, handlers, occurrence_told, List.map_id]
  rfl

theorem operation_told : (told history).operation = id := by
  funext op
  cases op <;> simp only [operation, pause_told, id]

theorem progress_told : (told history).progress = id := by
  funext out
  cases out <;> simp only [progress, pause_told, id]

end Past

namespace World

variable {v w : World π}

/-- The worlds differ at most in what has happened. -/
def SameState (v w : World π) : Prop :=
  { v with history := [] } = { w with history := [] }

theorem sameState_note (w : World π) (o o' : Occurrence π) : SameState (w.note o) (w.note o') := rfl

/-- Whatever is done in a world would be done in the same way without its history. -/
theorem afterAll_untold (w : World π) (ops : List (Operation π)) :
    let blank := { w with history := [] }
    w.outcomes ops = blank.outcomes ops ∧
      w.afterAll ops = { blank.afterAll ops with
        history := (blank.afterAll ops).history ++ w.history } := by
  intro blank
  have fits : (Past.told w.history).Fits blank := nofun
  have quiet : (Past.told w.history).Undisturbed blank ops := by
    rintro before c generation later - ⟨f, g, -, owned, -⟩
    cases owned
  obtain ⟨after, outcomes⟩ := Past.afterAll_world fits quiet
  have same : (Past.told w.history).world blank = w := Past.world_told ..
  rw [same, Past.operation_told, List.map_id] at after outcomes
  rw [Past.progress_told, Option.map_id_fun, List.map_id] at outcomes
  exact ⟨outcomes, after.trans (Past.world_told ..)⟩

/-- From the same state the same is done, answered and noted, whatever has happened before. -/
theorem SameState.afterAll (same : SameState v w) (ops : List (Operation π)) :
    v.outcomes ops = w.outcomes ops ∧ SameState (v.afterAll ops) (w.afterAll ops) ∧
      ∃ later, (v.afterAll ops).history = later ++ v.history ∧
        (w.afterAll ops).history = later ++ w.history := by
  obtain ⟨outcomes, after⟩ := afterAll_untold v ops
  obtain ⟨outcomes', after'⟩ := afterAll_untold w ops
  have blank : { v with history := [] } = { w with history := [] } := same
  simp only [blank] at outcomes after
  refine ⟨outcomes.trans outcomes'.symm, ?_, _, congrArg (·.history) after,
    congrArg (·.history) after'⟩
  rw [after, after']
  rfl

end World
end EventEngine
