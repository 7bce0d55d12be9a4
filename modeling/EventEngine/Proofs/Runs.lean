import EventEngine.Engine.Command
import Mathlib.Logic.Relation

/-!
# Runs

One step of a run is one atomic thing that some thread does: someone performs an action or ends its
waiting, or a section of a start, a worker moves, a timer thread moves, a lock changes hands
outside, a blocked dispatch is released, or a clock is used directly. Steps come in any order. What
commands do is one such order, so all that holds of reachable worlds holds of every state that
commands lead to. So is what the callback of an alarm that no handler has added does: it performs
actions and uses clocks, its own included, while its thread has not gone on with its batch, and it
may panic.
-/
namespace EventEngine

/-- Nobody has used the clock. -/
def Clock.New {α : Type} (k : Clock α) : Prop := ∃ config canSpawn, k = { config, canSpawn }

/-- Nobody has used the handler; there may be any number of references to it. -/
def Handler.New {π : Type} (x : Handler π) : Prop :=
  ∃ config canSpawn registrations lock clock handles,
    x = { config, canSpawn, types := .ofList registrations, lock, clock, handles }

namespace World

variable {π : Type}

/-- Someone who is no handler adds an alarm that fires once. -/
def addAlarm (w : World π) (c : ClockId) (deadline : Instant) : World π :=
  let (clock, _, notices) := (w.clock c).addOnce .other deadline
  w.setClock c clock notices

/-- Someone who is no handler adds a periodic alarm. -/
def addPeriodicAlarm (w : World π) (c : ClockId) (period : Duration) : World π :=
  let (clock, _, notices) := (w.clock c).addPeriodic w.now .other period
  w.setClock c clock notices

/-- Someone who is no handler removes an alarm, whoever has added it. -/
def removeAlarm (w : World π) (c : ClockId) (id : AlarmId) : World π :=
  let (clock, _, notices) := (w.clock c).remove id
  w.setClock c clock notices

/-- The callback of an alarm that no handler has added panics. The thread that has fired it ends,
and the rest of its batch is lost. -/
def panicTimer (w : World π) (c : ClockId) (generation : Nat) : World π :=
  w.setClock c ((w.clock c).dropTimer generation) []

/-- One step of some thread. -/
inductive Next : World π → World π → Prop where
  | act (w : World π) (action : Action π) : Next w (w.perform .outside action).1
  /-- A stop or a destruction from outside ends its waiting. -/
  | conclude {w w' : World π} {pause : Pause} {reply : Reply} :
      w.pauseEnd? pause = some (w', reply) → Next w w'
  | worker {w w' : World π} {h : HandlerId} : w.moveWorker h = some w' → Next w w'
  | timer {w w' : World π} {c : ClockId} {generation : Nat} :
      w.moveTimer c generation = some w' → Next w w'
  /-- A start comes to the end of its first section. -/
  | beginStart {w w' : World π} {h : HandlerId} {x : Handler π} {c : ClockId} :
      w.find? h = some x → w.beginStart h x = (w', .ok c) → Next w (w'.modify h (·.opened c))
  /-- A start that has come to the end of its first section goes through the second. -/
  | endStart {w : World π} {h : HandlerId} {x : Handler π} {c : ClockId} :
      w.find? h = some x → c ∈ x.starts → Next w ((w.modify h (·.entered c)).endStart h c).1
  | lock {w : World π} {l : LockId} :
      w.holder l = none → Next w (w.setHolder (some l) (some .outside))
  | unlock {w : World π} {l : LockId} :
      w.holder l = some .outside → Next w (w.setHolder (some l) none)
  | release (w : World π) (h : HandlerId) : Next w (w.release h).1
  | startClock (w : World π) (c : ClockId) : Next w (w.startClock c).1
  | stopClock (w : World π) (c : ClockId) : Next w (w.stopClock c)
  | addAlarm (w : World π) (c : ClockId) (deadline : Instant) : Next w (w.addAlarm c deadline)
  | addPeriodicAlarm (w : World π) (c : ClockId) (period : Duration) :
      Next w (w.addPeriodicAlarm c period)
  | removeAlarm (w : World π) (c : ClockId) (id : AlarmId) : Next w (w.removeAlarm c id)
  /-- Any timer thread may end by a panic at any time. -/
  | panicTimer (w : World π) (c : ClockId) (generation : Nat) : Next w (w.panicTimer c generation)

/-- A step in which someone performs an action: a thread outside, or a dispatch. -/
inductive Calls (action : Action π) : World π → World π → Prop where
  | outside (w : World π) : Calls action w (w.perform .outside action).1
  | dispatch {w : World π} {g : HandlerId} {x : Handler π} {record : Record π} {since : Instant}
      {rest : List (Action π)} : w.find? g = some x →
      x.worker = some (.dispatching record since (action :: rest) none) →
      Calls action w (w.dispatchAction g x record since action rest)

theorem Calls.next {v w : World π} {action : Action π} (calls : Calls action v w) : Next v w := by
  cases calls with
  | outside => exact .act v action
  | @dispatch g x record since rest found hworker =>
    have moved : v.moveWorker g = some (v.dispatchAction g x record since action rest) := by
      simp [moveWorker, found, hworker]
    exact .worker moved

/-- Any number of steps, in any order. -/
abbrev Run : World π → World π → Prop := Relation.ReflTransGen Next

/-- Nothing has happened yet: the handlers are stopped with nothing queued, the clocks are stopped
without alarms, and nobody holds a lock. -/
structure Fresh (w : World π) : Prop where
  now_le : w.now ≤ Instant.last
  clocks : ∀ k ∈ w.clocks, k.New
  locks : ∀ who ∈ w.locks, who = none
  handlers : ∀ x ∈ w.handlers, x.New
  history : w.history = []

/-- Some run from a fresh world leads here. -/
def Reachable (w : World π) : Prop := ∃ w₀, Fresh w₀ ∧ Run w₀ w

theorem Fresh.reachable {w : World π} (fresh : Fresh w) : Reachable w := ⟨w, fresh, .refl⟩

theorem Reachable.next {v w : World π} (reach : Reachable v) (step : Next v w) : Reachable w := by
  obtain ⟨w₀, fresh, run⟩ := reach
  exact ⟨w₀, fresh, run.tail step⟩

theorem Reachable.run {v w : World π} (reach : Reachable v) (run : Run v w) : Reachable w := by
  obtain ⟨w₀, fresh, before⟩ := reach
  exact ⟨w₀, fresh, before.trans run⟩

/-- What holds of fresh worlds and is kept by every step from a reachable world holds of every
reachable world. -/
theorem Reachable.induct {P : World π → Prop} (fresh : ∀ w, Fresh w → P w)
    (next : ∀ v w, Reachable v → P v → Next v w → P w) {w : World π} (reach : Reachable w) :
    P w := by
  obtain ⟨w₀, hfresh, run⟩ := reach
  induction run with
  | refl => exact fresh w₀ hfresh
  | tail before step ih => exact next _ _ ⟨w₀, hfresh, before⟩ ih step

/-! ## Commands are runs -/

theorem move?_next {w w' : World π} (h : w.move? = some w') : Next w w' := by
  unfold move? at h
  rw [Option.or_eq_some_iff] at h
  rcases h with h | ⟨-, h⟩
  · obtain ⟨c, -, hc⟩ := List.exists_of_findSome?_eq_some h
    obtain ⟨t, -, moved⟩ := Option.bind_eq_some_iff.mp hc
    exact .timer moved
  · obtain ⟨g, -, hg⟩ := List.exists_of_findSome?_eq_some h
    exact .worker hg

theorem settle_run (patience : Nat) (w : World π) : Run w (w.settle patience) := by
  induction patience generalizing w with
  | zero => exact .refl
  | succ patience ih =>
    unfold settle
    split
    · next moved => exact .head (move?_next moved) (ih _)
    · exact .refl

theorem call_run (patience : Nat) (w : World π) (action : Action π) :
    Run w (w.call patience action).1 := by
  have acted : Next w (w.perform .outside action).1 := .act w action
  unfold call
  split
  · next performed => rw [performed] at acted; exact .single acted
  · next performed => rw [performed] at acted; exact .single acted
  · next pause performed =>
    rw [performed] at acted
    have settled := settle_run patience (w.perform .outside action).1
    rw [performed] at settled
    simp only at settled ⊢
    cases ended : pauseEnd? (settle patience _) pause with
    | none => exact .head acted settled
    | some result => exact (Relation.ReflTransGen.head acted settled).tail (.conclude ended)

theorem callAll_run (patience : Nat) (w : World π) (actions : List (Action π)) :
    Run w (w.callAll patience actions).1 := by
  induction actions generalizing w with
  | nil => exact .refl
  | cons action rest ih => exact (call_run patience w action).trans (ih _)

theorem carryOut_run (patience : Nat) (w : World π) (command : Command π) :
    Run w (w.carryOut patience command).1 := by
  cases command with
  | act action =>
    simp only [carryOut]
    split
    · exact .refl
    · exact call_run patience w action
  | batch actions => exact callAll_run patience w actions
  | lock l =>
    simp only [carryOut]
    split
    · exact .refl
    · next free => exact .single (.lock (by simpa using free))
  | unlock l =>
    simp only [carryOut]
    split
    · next held => exact .single (.unlock held)
    · exact .refl
  | release h => exact .single (.release w h)
  | stopAsync h =>
    have acted : Next w (w.perform .outside (.stop h)).1 := .act w (.stop h)
    simp only [carryOut]
    split <;> next performed => rw [performed] at acted; exact .single acted
  | startClock c =>
    have started : Next w (w.startClock c).1 := .startClock w c
    simp only [carryOut]
    split <;> next performed => rw [performed] at started; exact .single started
  | stopClock c => exact .single (.stopClock w c)

/-- A command, with the settling after it, is a run. -/
theorem step_run (patience : Nat) (w : World π) (command : Command π) :
    Run w (w.step patience command).1 :=
  (carryOut_run patience w command).trans (settle_run patience _)

def steps (patience : Nat) (w : World π) (commands : List (Command π)) : World π :=
  commands.foldl (fun w command => (w.step patience command).1) w

theorem steps_run (patience : Nat) (w : World π) (commands : List (Command π)) :
    Run w (w.steps patience commands) := by
  induction commands generalizing w with
  | nil => exact .refl
  | cons command rest ih => exact (step_run patience w command).trans (ih _)

theorem Reachable.steps {w : World π} (reach : Reachable w) (patience : Nat)
    (commands : List (Command π)) : Reachable (w.steps patience commands) :=
  reach.run (steps_run patience w commands)

/-- New handlers, with clocks and locks that nobody has used, make a fresh world. -/
theorem fresh_of_handlers (clocks locks : Nat) {handlers : List (Handler π)}
    (new : ∀ x ∈ handlers, x.New) :
    Fresh { clocks := List.replicate clocks {}, locks := List.replicate locks none, handlers } where
  now_le := Nat.zero_le _
  clocks := fun _ hk => ⟨{}, _, List.eq_of_mem_replicate hk⟩
  locks := fun _ held => List.eq_of_mem_replicate held
  handlers := new
  history := rfl

/-- A fresh world with one handler of one event type. -/
def single (π : Type) : World π :=
  { handlers := [{ config := { name := "single" }, types := .ofList [⟨"A", "a"⟩] }] }

theorem single_fresh : Fresh (single π) := by
  refine fresh_of_handlers 1 0 fun x hx => ?_
  exact ⟨_, _, _, _, _, _, List.mem_singleton.mp hx⟩

end World
end EventEngine
