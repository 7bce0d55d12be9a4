import EventEngine.Proofs.Clocks.Callbacks
import EventEngine.Proofs.Operations
import EventEngine.Proofs.StopGuarantees
import Mathlib.Data.List.Infix

/-!
# Firings that a stop has overtaken

A timer thread fires the alarms of its batch one after another, so that an alarm may fire long after
a stop has removed it, and after the handler has been started again. A clock issues every id once.
So for a handler that keeps its clock an id that is no longer registered does not come back, and
what fires under it is dropped.
-/
namespace EventEngine.World

variable {π : Type} {h : HandlerId} {c : ClockId} {id : AlarmId} {t u v w w₀ : World π}
  {x : Handler π} {setup : TimeoutSetup π} {deadline : Instant}

/-- A run in which handler `h` uses no clock but `c`. -/
abbrev RunOn (h : HandlerId) (c : ClockId) : World π → World π → Prop :=
  Relation.ReflTransGen fun v w => Next v w ∧ v.Clings h c

theorem RunOn.run (run : RunOn h c v w) : Run v w :=
  Relation.ReflTransGen.mono (fun _ _ => And.left) _ _ run

instance : Decidable (w.Clings h c) :=
  decidable_of_iff (((w.handlers[h]?).all fun x =>
      x.clock.getD sharedClock = c && x.starts.all (· = c)) = true) <| by
    unfold Clings
    cases w.handlers[h]? with
    | none => simp
    | some x => simp

theorem runOn_afterAll {ops : List (Operation π)}
    (clings : ∀ before ∈ ops.inits, (w.afterAll before).Clings h c) :
    RunOn h c w (w.afterAll ops) := by
  induction ops using List.reverseRecOn with
  | nil => exact .refl
  | append_singleton ops op ih =>
    have before : RunOn h c w (w.afterAll ops) := ih fun earlier member =>
      clings earlier <| (List.mem_inits ..).mpr <|
        ((List.mem_inits ..).mp member).trans (List.prefix_append ..)
    rw [afterAll_concat]
    rcases (w.afterAll ops).after_cases op with same | step
    · rwa [same]
    · exact before.tail ⟨step, clings ops ((List.mem_inits ..).mpr (List.prefix_append ..))⟩

/-! ## Ids do not come back -/

/-- Clock `c` has issued the id, and handler `h` has not registered it. -/
structure Lapsed (h : HandlerId) (c : ClockId) (id : AlarmId) (w : World π) : Prop where
  issued : id < (w.clock c).nextId
  unregistered : w.registered? h ≠ some id

/-- A start registers an id that the clock has not issued before. -/
theorem Lapsed.next (lapsed : Lapsed h c id v) (step : Next v w)
    (clings : v.Clings h c) : Lapsed h c id w := by
  refine ⟨Nat.lt_of_lt_of_le lapsed.issued (step.ticks.steps c).nextId_le, fun registered => ?_⟩
  rcases step.registered_cases registered with kept | ⟨x, c', hx, uses, new⟩
  · exact lapsed.unregistered kept
  · obtain ⟨now, began⟩ := clings x hx
    obtain rfl : c = c' := uses.elim (fun uses => now.symm.trans uses) fun member =>
      (began c' member).symm
    exact absurd new (Nat.ne_of_lt lapsed.issued)

theorem Lapsed.run (lapsed : Lapsed h c id v) (run : RunOn h c v w) : Lapsed h c id w := by
  induction run with
  | refl => exact lapsed
  | tail _ step ih => exact ih.next step.1 step.2

theorem Clings.onClock (clings : v.Clings h c) (reach : Reachable v)
    (hx : v.handlers[h]? = some x) : x.OnClock := by
  intro c' member
  obtain ⟨now, began⟩ := clings x hx
  obtain ⟨d, clock⟩ :=
    Option.isSome_iff_exists.mp ((clocked_of_reachable reach hx).starts c' member)
  rw [began c' member, ← now, clock]
  rfl

/-- A clock counts its ids in 64 bits. It does not issue a lapsed one again, while it has issued
fewer than 2^64. -/
theorem Lapsed.ofNat_ne_nextId (lapsed : Lapsed h c id w) (few : (w.clock c).nextId < UInt64.size) :
    UInt64.ofNat id ≠ UInt64.ofNat (w.clock c).nextId := by
  intro same
  have issued := lapsed.issued
  have equal := (AlarmId.ofNat_inj few (Nat.lt_succ_of_lt issued) (Nat.lt_succ_self _)).mp same
  exact Nat.ne_of_lt issued equal

/-- What a handler registers has been issued by the clock that it has kept. -/
theorem RunOn.issued (run : RunOn h c w₀ w) (fresh : Fresh w₀) (there : c < w₀.clocks.length)
    (clings : w.Clings h c) (registered : w.registered? h = some id) :
    id < (w.clock c).nextId := by
  induction run with
  | refl =>
    obtain ⟨x, found, registered⟩ := registered?_eq_some.mp registered
    obtain ⟨_, _, _, _, _, _, rfl⟩ :=
      fresh.handlers x (List.mem_of_getElem? (find?_eq_some.mp found).1)
    cases registered
  | @tail v w before step ih =>
    obtain ⟨step, clings'⟩ := step
    have reach : Reachable v := fresh.reachable.run (RunOn.run before)
    by_cases launches : w.launches h = v.launches h
    · have kept := (step.evolves h).registered launches registered
      exact Nat.lt_of_lt_of_le (ih clings' kept) (step.ticks.steps c).nextId_le
    · obtain ⟨x, found, alarm⟩ := registered?_eq_some.mp registered
      obtain ⟨hx, -⟩ := find?_eq_some.mp found
      have clocked : x.clock.isSome = true :=
        clock_of_registered (reach.next step) hx (by rw [alarm]; rfl)
      obtain ⟨c', clock⟩ := Option.isSome_iff_exists.mp clocked
      obtain rfl : c' = c := by simpa [clock] using (clings x hx).1
      refine step.issued_of_launch reach launches (fun y hy => clings'.onClock reach hy) hx alarm
        clock ?_
      rwa [Run.length_clocks ((RunOn.run before).tail step)]

/-! ## Firings -/

/-- The alarm `id` of handler `h` fires, or the handler is told so. -/
inductive Rings (h : HandlerId) (id : AlarmId) (deadline : Instant) : World π → World π → Prop where
  | told (v : World π) : Rings h id deadline v (v.signalTimeout h id deadline)
  | timer {v w : World π} {c : ClockId} {generation : Nat} : v.moveTimer c generation = some w →
      (v.clock c).nextFiring? v.now generation = some ⟨id, deadline, .handler h⟩ →
      Rings h id deadline v w

/-- Nothing happens to any handler. -/
structure Unheard (v w : World π) : Prop where
  now : w.now = v.now
  wallStart : w.wallStart = v.wallStart
  handlers : w.handlers = v.handlers
  story (g : HandlerId) : w.story g = v.story g

/-- A timer thread that fires an alarm of a handler tells the handler. -/
theorem Rings.tells (rings : Rings h id deadline v w) :
    ∃ t, Unheard v t ∧ w = t.signalTimeout h id deadline := by
  cases rings with
  | told => exact ⟨v, ⟨rfl, rfl, rfl, fun _ => rfl⟩, rfl⟩
  | @timer _ c generation moved next =>
    obtain ⟨t, ready, rfl⟩ := moveTimer_eq_some.mp moved
    obtain ⟨t', ready', fires⟩ := Clock.nextFiring?_eq_some.mp next
    obtain rfl := Option.some.inj (ready.symm.trans ready')
    refine ⟨v.ticked c t, ⟨rfl, rfl, rfl, fun g => story_setClock ..⟩, ?_⟩
    rw [fires]
    rfl

theorem Unheard.registered? (unheard : Unheard v w) : w.registered? h = v.registered? h := by
  simp only [World.registered?, find?, unheard.handlers]

/-- What fires under an id that is not registered is dropped. -/
theorem Rings.unheard (rings : Rings h id deadline v w) (unregistered : v.registered? h ≠ some id) :
    Unheard v w := by
  obtain ⟨t, unheard, rfl⟩ := rings.tells
  rwa [signalTimeout_unregistered deadline (unheard.registered? ▸ unregistered)]

/-- The timeout is put at the head of the queue of `h`, and nothing else happens to any handler. -/
structure QueuesTimeout (h : HandlerId) (x : Handler π) (record : Record π) (v w : World π) :
    Prop where
  now : w.now = v.now
  handler : w.handlers[h]? = some { x with
    queue := { x.queue with events := record :: x.queue.events }
    metrics := { x.metrics with enqueuedOob := x.metrics.enqueuedOob + 1 }
    issued := x.issued + 1 }
  story : w.story h = .enqueued h .head record :: v.story h
  others (g : HandlerId) : g ≠ h →
    w.handlers[g]? = v.handlers[g]? ∧ w.story g = v.story g

theorem Rings.queuesTimeout (rings : Rings h id deadline v w) (found : v.find? h = some x)
    (registered : x.timeoutAlarm = some id) (timeout : x.timeout = some setup) :
    QueuesTimeout h x (x.nextRecord
      (.timeout setup ⟨id, deadline, .ofDeadline deadline v.now v.wallStart⟩)) v w := by
  obtain ⟨t, unheard, rfl⟩ := rings.tells
  have found' : t.find? h = some x := by
    rw [← found]
    simp only [find?, unheard.handlers]
  obtain ⟨hx, -⟩ := find?_eq_some.mp found'
  have queued : t.signalTimeout h id deadline = t.enqueue h x .head
      (.timeout setup ⟨id, deadline, .ofDeadline deadline v.now v.wallStart⟩) := by
    rw [signalTimeout, found', ← unheard.now, ← unheard.wallStart]
    simp only [registered, if_pos, timeout]
  rw [queued]
  refine ⟨unheard.now, ?_, ?_, fun g ne => ⟨?_, ?_⟩⟩
  · simp [enqueue, hx, Handler.enqueue, Queue.enqueueHead, Metrics.recordEnqueuedOob]
  · rw [enqueue, story_note_self rfl, story_modify, unheard.story]
  · simp [enqueue, ne.symm, unheard.handlers]
  · rw [enqueue, story_note, if_neg (by simpa [Occurrence.milestone?] using ne.symm), story_modify,
      unheard.story]

/-- For a handler that keeps its clock, a firing of the alarm that is registered puts one timeout at
the head of its queue. Once a step has unregistered the alarm, as every stop and every destruction
of a running handler does, its firings are dropped for ever, however late they are delivered and
whatever has been done in between: the handlers are not touched, and nothing is queued. -/
theorem overtaken_firing_ignored (fresh : Fresh w₀) (there : c < w₀.clocks.length)
    (run : RunOn h c w₀ v) (clings : v.Clings h c) (found : v.find? h = some x)
    (registered : x.timeoutAlarm = some id) :
    (∃ setup, x.timeout = some setup ∧ ∀ deadline w, Rings h id deadline v w →
      QueuesTimeout h x (x.nextRecord
        (.timeout setup ⟨id, deadline, .ofDeadline deadline v.now v.wallStart⟩)) v w) ∧
    (x.isRunning = true → ∀ w, Calls (.stop h) v w ∨ Calls (.destroy h) v w →
      w.registered? h = none) ∧
    ∀ w u, Next v w → w.registered? h ≠ some id → RunOn h c w u → ∀ deadline,
      u.signalTimeout h id deadline = u ∧ ∀ u', Rings h id deadline u u' → Unheard u u' := by
  have reach : Reachable v := fresh.reachable.run run.run
  have registered' : v.registered? h = some id := registered?_eq_some.mpr ⟨x, found, registered⟩
  refine ⟨?_, fun running w calls => ?_, fun w u step unregistered later deadline => ?_⟩
  · have configured : x.timeout.isSome = true :=
      configured_of_registered reach (find?_eq_some.mp found).1 (by rw [registered]; rfl)
    obtain ⟨setup, timeout⟩ := Option.isSome_iff_exists.mp configured
    exact ⟨setup, timeout, fun deadline w rings => rings.queuesTimeout found registered timeout⟩
  · have step : Next v w := calls.elim Calls.next Calls.next
    obtain ⟨y, found', running', asked⟩ := Calls.stopping calls ⟨x, found, running, rfl⟩
    obtain ⟨hy, -⟩ := find?_eq_some.mp found'
    have disarmed := (reach.next step).disarmed (outline?_eq_some.mpr ⟨y, hy, rfl⟩)
    rw [World.registered?, found']
    exact disarmed.requested (y.isRunning_outline.trans running') asked
  · have lapsed : Lapsed h c id w :=
      ⟨Nat.lt_of_lt_of_le (run.issued fresh there clings registered')
        (step.ticks.steps c).nextId_le, unregistered⟩
    have gone := (lapsed.run later).unregistered
    exact ⟨signalTimeout_unregistered deadline gone, fun u' rings => rings.unheard gone⟩

/-- A timer thread has taken the alarm when its handler is stopped, and fires it when the handler
has been started again. What would have been a timeout is dropped. -/
theorem firing_dropped_after_restart :
    let v := (single Nat).afterAll [.act (.setTimeout 0 (.ofParts 1 0) 0 []), .act (.start 0),
      .act (.advance (.ofParts 1 0)), .timer 0 0]
    let w := (v.perform .outside (.stop 0)).1
    let u := w.afterAll [.worker 0, .act (.start 0)]
    (v.registered? 0, w.registered? 0, u.registered? 0) = (some 1, none, some 2) ∧
    (∃ v', v.moveTimer 0 0 = some v' ∧ ∃ x record, v.find? 0 = some x ∧
      QueuesTimeout 0 x record v v') ∧
    ∃ u', u.moveTimer 0 0 = some u' ∧ Unheard u u' := by
  intro v w u
  have run : RunOn 0 0 (single Nat) v := runOn_afterAll (by decide +kernel)
  have later : RunOn 0 0 w u := runOn_afterAll (by decide +kernel)
  have registered : v.registered? 0 = some 1 := by decide +kernel
  obtain ⟨x, found, alarm⟩ := registered?_eq_some.mp registered
  obtain ⟨⟨setup, -, queues⟩, stops, ignored⟩ :=
    overtaken_firing_ignored single_fresh (by decide) run (by decide +kernel) found alarm
  have running : x.isRunning = true := by
    have known : (v.find? 0).map Handler.isRunning = some true := by decide +kernel
    rw [found] at known
    exact Option.some.inj known
  have unregistered : w.registered? 0 = none := stops running w (.inl (.outside v))
  have fires : (v.clock 0).nextFiring? v.now 0 = some ⟨1, .ofParts 1 0, .handler 0⟩ ∧
      (u.clock 0).nextFiring? u.now 0 = some ⟨1, .ofParts 1 0, .handler 0⟩ := by decide +kernel
  obtain ⟨v', moved⟩ : ∃ v', v.moveTimer 0 0 = some v' :=
    Option.isSome_iff_exists.mp (by decide +kernel)
  obtain ⟨u', moved'⟩ : ∃ u', u.moveTimer 0 0 = some u' :=
    Option.isSome_iff_exists.mp (by decide +kernel)
  refine ⟨by decide +kernel, ⟨v', moved, x, _, found, queues _ v' (.timer moved fires.1)⟩,
    u', moved', ?_⟩
  have dropped := ignored w u (.act v (.stop 0)) (by simp [unregistered]) later (.ofParts 1 0)
  exact dropped.2 u' (.timer moved' fires.2)

end EventEngine.World
