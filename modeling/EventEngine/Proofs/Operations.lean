import EventEngine.Proofs.Runs
import EventEngine.Proofs.Turns.Effects

/-!
# Operations

A step of a run as a thing that can be asked for: who does it and what is done determine what comes
of it, and how it went. Runs are then lists of operations, which can be carried out from different
worlds and compared.
-/
namespace EventEngine

/-- Something that some thread can do. -/
inductive Operation (π : Type) where
  /-- A thread outside performs an action. -/
  | act (action : Action π)
  /-- A thread outside ends its waiting. -/
  | conclude (pause : Pause)
  | worker (h : HandlerId)
  | timer (c : ClockId) (generation : Nat)
  /-- A start goes through its first section. -/
  | beginStart (h : HandlerId)
  /-- A start goes through its second section. -/
  | endStart (h : HandlerId) (c : ClockId)
  | lock (l : LockId)
  | unlock (l : LockId)
  | release (h : HandlerId)
  | startClock (c : ClockId)
  | stopClock (c : ClockId)
  | addAlarm (c : ClockId) (deadline : Instant)
  | addPeriodicAlarm (c : ClockId) (period : Duration)
  | removeAlarm (c : ClockId) (id : AlarmId)
  /-- A callback panics, which ends its timer thread. -/
  | panicTimer (c : ClockId) (generation : Nat)

namespace World

variable {π : Type} {v w : World π} {op : Operation π} {ops : List (Operation π)}

/-- The first section of a start that comes to its end. -/
def beginStart? (w : World π) (h : HandlerId) : Option (World π) :=
  (w.find? h).bind fun x => match w.beginStart h x with
    | (w, .ok c) => some (w.modify h (·.opened c))
    | (_, .error _) => none

/-- The second section of a start that has been through the first, and what the start answers. -/
def endStart? (w : World π) (h : HandlerId) (c : ClockId) : Option (World π × Reply) :=
  (w.find? h).bind fun x =>
    if c ∈ x.starts then some (((w.modify h (·.entered c)).endStart h c).map id startReply)
    else none

theorem beginStart?_eq_some {h : HandlerId} : w.beginStart? h = some v ↔
    ∃ x c k notices, w.find? h = some x ∧ c = x.clock.getD sharedClock ∧
      (w.clock c).start = .ok (k, notices) ∧
      v = ((w.adopted h).setClock c k notices).modify h (·.opened c) := by
  unfold beginStart?
  constructor
  · intro begun
    obtain ⟨x, found, begun⟩ := Option.bind_eq_some_iff.mp begun
    split at begun
    · next c begins =>
      obtain ⟨same, k, notices, started, rfl⟩ := beginStart_eq_ok.mp begins
      cases begun
      exact ⟨x, c, k, notices, found, same, started, rfl⟩
    · cases begun
  · rintro ⟨x, c, k, notices, found, same, started, rfl⟩
    have begins : w.beginStart h x = ((w.adopted h).setClock c k notices, .ok c) :=
      beginStart_eq_ok.mpr ⟨same, k, notices, started, rfl⟩
    simp [found, begins]

theorem endStart?_eq_some {h : HandlerId} {c : ClockId} {result : World π × Reply} :
    w.endStart? h c = some result ↔ ∃ x, w.find? h = some x ∧ c ∈ x.starts ∧
      result = ((w.modify h (·.entered c)).endStart h c).map id startReply := by
  simp only [endStart?, Option.bind_eq_some_iff, Option.ite_none_right_eq_some, Option.some.injEq,
    eq_comm (a := result)]

/-- What comes of an operation and how it went; nothing if it cannot be done now. Adding an alarm
answers its id, and removing one whether it was there. -/
def operate (w : World π) : Operation π → Option (World π × Progress)
  | .act action => some (w.perform .outside action)
  | .conclude pause => (w.pauseEnd? pause).map (Prod.map id .replied)
  | .worker h => (w.moveWorker h).map (·, .replied .done)
  | .timer c generation => (w.moveTimer c generation).map (·, .replied .done)
  | .beginStart h => (w.beginStart? h).map (·, .replied .done)
  | .endStart h c => (w.endStart? h c).map (Prod.map id .replied)
  | .lock l =>
    if w.holder l = none then some (w.setHolder (some l) (some .outside), .replied .done) else none
  | .unlock l =>
    if w.holder l = some .outside then some (w.setHolder (some l) none, .replied .done) else none
  | .release h => some ((w.release h).map id .replied)
  | .startClock c => some ((w.startClock c).map id (.replied ∘ startReply))
  | .stopClock c => some (w.stopClock c, .replied .done)
  | .addAlarm c deadline =>
    some (w.addAlarm c deadline, .replied (.count (w.clock c).nextId))
  | .addPeriodicAlarm c period =>
    some (w.addPeriodicAlarm c period, .replied (.count (w.clock c).nextId))
  | .removeAlarm c alarm =>
    some (w.removeAlarm c alarm, .replied (.flag ((w.clock c).remove alarm).2.1))
  | .panicTimer c generation => some (w.panicTimer c generation, .replied .done)

theorem Next.of_operate {out : Progress} (operated : v.operate op = some (w, out)) : Next v w := by
  cases op with
  | act action =>
    have same : (v.perform .outside action).1 = w := congrArg Prod.fst (Option.some.inj operated)
    exact same ▸ .act v action
  | conclude pause =>
    obtain ⟨⟨u, reply⟩, ended, same⟩ := Option.map_eq_some_iff.mp operated
    cases same
    exact .conclude ended
  | worker h =>
    obtain ⟨u, moved, same⟩ := Option.map_eq_some_iff.mp operated
    cases same
    exact .worker moved
  | timer c generation =>
    obtain ⟨u, moved, same⟩ := Option.map_eq_some_iff.mp operated
    cases same
    exact .timer moved
  | beginStart h =>
    obtain ⟨u, begun, same⟩ := Option.map_eq_some_iff.mp operated
    cases same
    obtain ⟨x, c, k, notices, found, same, started, rfl⟩ := beginStart?_eq_some.mp begun
    exact .beginStart found (beginStart_eq_ok.mpr ⟨same, k, notices, started, rfl⟩)
  | endStart h c =>
    obtain ⟨result, ended, same⟩ := Option.map_eq_some_iff.mp operated
    obtain ⟨x, found, pending, rfl⟩ := endStart?_eq_some.mp ended
    cases same
    exact .endStart found pending
  | lock l =>
    simp only [operate] at operated
    split at operated
    · next free => cases operated; exact .lock free
    · cases operated
  | unlock l =>
    simp only [operate] at operated
    split at operated
    · next held => cases operated; exact .unlock held
    · cases operated
  | release h =>
    have same : (v.release h).1 = w := congrArg Prod.fst (Option.some.inj operated)
    exact same ▸ .release v h
  | startClock c =>
    have same : (v.startClock c).1 = w := congrArg Prod.fst (Option.some.inj operated)
    exact same ▸ .startClock v c
  | stopClock c => cases operated; exact .stopClock v c
  | addAlarm c deadline => cases operated; exact .addAlarm v c deadline
  | addPeriodicAlarm c period => cases operated; exact .addPeriodicAlarm v c period
  | removeAlarm c alarm => cases operated; exact .removeAlarm v c alarm
  | panicTimer c generation => cases operated; exact .panicTimer v c generation

/-- Every step is an operation. -/
theorem Next.operation (step : Next v w) : ∃ op out, v.operate op = some (w, out) := by
  cases step with
  | act action => exact ⟨.act action, _, rfl⟩
  | @conclude _ pause reply ended =>
    exact ⟨.conclude pause, .replied reply, by simp [operate, ended]⟩
  | @worker _ h moved => exact ⟨.worker h, .replied .done, by simp [operate, moved]⟩
  | @timer _ c generation moved =>
    exact ⟨.timer c generation, .replied .done, by simp [operate, moved]⟩
  | @beginStart _ h x c found begun =>
    exact ⟨.beginStart h, .replied .done, by simp [operate, beginStart?, found, begun]⟩
  | @endStart h x c found pending =>
    exact ⟨.endStart h c, _, by simp [operate, endStart?, found, pending]; rfl⟩
  | @lock l free => exact ⟨.lock l, .replied .done, if_pos free⟩
  | @unlock l held => exact ⟨.unlock l, .replied .done, if_pos held⟩
  | release h => exact ⟨.release h, _, rfl⟩
  | startClock c => exact ⟨.startClock c, _, rfl⟩
  | stopClock c => exact ⟨.stopClock c, _, rfl⟩
  | addAlarm c deadline => exact ⟨.addAlarm c deadline, _, rfl⟩
  | addPeriodicAlarm c period => exact ⟨.addPeriodicAlarm c period, _, rfl⟩
  | removeAlarm c alarm => exact ⟨.removeAlarm c alarm, _, rfl⟩
  | panicTimer c generation => exact ⟨.panicTimer c generation, _, rfl⟩

/-! ## Operations in a row -/

/-- The world after an operation. One that cannot be done changes nothing. -/
def after (w : World π) (op : Operation π) : World π := ((w.operate op).map Prod.fst).getD w

def outcome (w : World π) (op : Operation π) : Option Progress := (w.operate op).map Prod.snd

def afterAll (w : World π) (ops : List (Operation π)) : World π := ops.foldl after w

def outcomes (w : World π) : List (Operation π) → List (Option Progress)
  | [] => []
  | op :: rest => w.outcome op :: (w.after op).outcomes rest

theorem after_cases (w : World π) (op : Operation π) : w.after op = w ∨ Next w (w.after op) := by
  unfold after
  cases operated : w.operate op with
  | none => exact .inl rfl
  | some result =>
    obtain ⟨v, out⟩ := result
    exact .inr (Next.of_operate operated)

theorem afterAll_run (w : World π) (ops : List (Operation π)) : Run w (w.afterAll ops) := by
  induction ops generalizing w with
  | nil => exact .refl
  | cons op rest ih =>
    rcases w.after_cases op with same | step
    · have skipped : w.afterAll (op :: rest) = w.afterAll rest :=
        congrArg (fun v => v.afterAll rest) same
      exact skipped ▸ ih w
    · exact .head step (ih _)

theorem afterAll_concat (w : World π) (ops : List (Operation π)) (op : Operation π) :
    w.afterAll (ops ++ [op]) = (w.afterAll ops).after op := by
  rw [afterAll, List.foldl_append]
  rfl

/-- Every run is a list of operations. -/
theorem Run.operations (run : Run v w) : ∃ ops, w = v.afterAll ops := by
  induction run with
  | refl => exact ⟨[], rfl⟩
  | tail _ step ih =>
    obtain ⟨ops, rfl⟩ := ih
    obtain ⟨op, out, operated⟩ := step.operation
    exact ⟨ops ++ [op], by rw [afterAll_concat, after, operated]; rfl⟩

end World
end EventEngine
