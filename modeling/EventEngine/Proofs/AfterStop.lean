import EventEngine.Proofs.Expiry

/-!
# Timeouts after a stop

A stop of a running handler forgets its alarm, and no timeout is queued until a worker is started
again. A stop of a handler that is not running does nothing. So timeouts follow a stop if the worker
has ended by a panic, which leaves the alarm registered, and a clock still knows of the alarm.
-/
namespace EventEngine.World

variable {π : Type} {h : HandlerId} {v w : World π} {x : Handler π}

/-- The handler has no worker, but a timer thread may come to time it out. -/
def LeftPrimed (w : World π) (h : HandlerId) : Prop :=
  w.Primed h ∧ ∃ x, w.find? h = some x ∧ x.isRunning = false

theorem Calm.primed (calm : Calm v w) (primed : v.Primed h) : w.Primed h := by
  obtain ⟨id, c, registered, knows⟩ := primed
  refine ⟨id, c, (calm.still h).registered?.trans registered, ?_⟩
  rwa [calm.clock]

theorem Calm.leftPrimed (calm : Calm v w) (left : v.LeftPrimed h) : w.LeftPrimed h := by
  obtain ⟨primed, x, found, stopped⟩ := left
  obtain ⟨y, found', same⟩ := (calm.still h).find? found
  refine ⟨calm.primed primed, y, found', ?_⟩
  rw [← y.isRunning_outline, same, x.isRunning_outline, stopped]

theorem perform_stop (w : World π) (who : Caller) (found : w.find? h = some x) :
    (w.perform who (.stop h)).1 = (w.requestStop who h x false).1 := by
  simp only [perform, withHandler, found]
  split <;> next answered => rw [answered]

/-- A handler that has been asked to stop is primed only if it was, without a worker. -/
theorem primed_stop_iff (who : Caller) : (w.perform who (.stop h)).1.Primed h ↔ w.LeftPrimed h := by
  constructor
  · intro primed
    have ⟨id, c, registered, _⟩ := primed
    obtain ⟨y, found', registered⟩ := registered?_eq_some.mp registered
    cases found : w.find? h with
    | none => simp [perform, withHandler, found] at found'
    | some x =>
      rw [perform_stop w who found] at primed found'
      by_cases running : x.isRunning = true
      · have asked := find?_requestStop found running who false
        obtain rfl := Option.some.inj (asked.symm.trans found')
        cases registered
      · rw [requestStop, if_neg running] at primed
        exact ⟨primed, x, found, (Bool.not_eq_true _).mp running⟩
  · rintro ⟨primed, x, found, stopped⟩
    rw [perform_stop w who found, requestStop, if_neg (by simp [stopped])]
    exact primed

theorem Calls.primed_iff (stops : Calls (.stop h) v w) : w.Primed h ↔ v.LeftPrimed h := by
  obtain ⟨t, who, before, after⟩ := stops.calm nofun
  constructor
  · intro primed
    exact before.symm.leftPrimed ((primed_stop_iff who).mp (after.symm.primed primed))
  · intro left
    exact after.primed ((primed_stop_iff who).mpr (before.leftPrimed left))

/-- From the call of a stop, whoever calls it, until a worker is started again, no timeout is queued
on the handler and the passing of time changes nothing about it, unless the handler had no worker
and was left primed. Then some run does queue a timeout, and the last worker has ended by a panic
without a stop. -/
theorem no_timeout_after_stop_iff (reach : Reachable v) (stops : Calls (.stop h) v w) :
    ((∀ u, Run w u → u.launches h = w.launches h → u.timeouts h = w.timeouts h) ↔
      ¬ v.LeftPrimed h) ∧
    (¬ v.LeftPrimed h → ∀ u u', Run w u → u.launches h = w.launches h →
      Relation.ReflTransGen Lapse u u' → u'.handlers[h]? = u.handlers[h]?) ∧
    (v.LeftPrimed h → Handler.Panicked (v.story h)) := by
  rw [← stops.primed_iff]
  refine ⟨⟨?_, ?_⟩, ?_, ?_⟩
  · intro quiet primed
    obtain ⟨u, run, launches, fired⟩ := primed.expires (reach.next stops.next)
    exact Nat.ne_of_gt fired (quiet u run launches)
  · intro unprimed u run launches
    exact (Run.unprimed run launches unprimed).2
  · intro unprimed u u' run launches lapse
    exact lapse_unprimed lapse (Run.unprimed run launches unprimed).1
  · intro primed
    obtain ⟨⟨id, c, registered, -⟩, x, found, stopped⟩ := stops.primed_iff.mp primed
    obtain ⟨y, found', registered⟩ := registered?_eq_some.mp registered
    obtain rfl := Option.some.inj (found.symm.trans found')
    exact panicked_of_registered reach (find?_eq_some.mp found).1
      (by simpa [Handler.isRunning] using stopped) (by simp [registered])

/-- A dispatcher panics, and its handler is stopped afterwards. The alarm is still scheduled: one
period later a timeout is queued on the stopped handler. -/
theorem timeout_after_panic :
    let w := (single Nat).steps 20 [.act (.setTimeout 0 (.ofParts 1 0) 0 []), .act (.start 0),
      .act (.signal 0 .tail "A" 1 [.panic])]
    let v := (w.perform .outside (.stop 0)).1
    (¬ ∀ u, Run v u → u.launches 0 = v.launches 0 → u.timeouts 0 = v.timeouts 0) ∧
    v.timeouts 0 = 0 ∧ (v.step 20 (.act (.advance (.ofParts 1 0)))).1.timeouts 0 = 1 := by
  intro w v
  have reach : Reachable w := single_fresh.reachable.steps 20 _
  have known : (w.find? 0).map (fun x => (x.isRunning, x.timeoutAlarm)) = some (false, some 1) := by
    decide +kernel
  obtain ⟨x, found, same⟩ := Option.map_eq_some_iff.mp known
  obtain ⟨stopped, registered⟩ := Prod.mk.inj same
  have scheduled : ∃ a ∈ (w.clock 0).alarms, a.id = 1 ∧ a.callback = .handler 0 := by
    decide +kernel
  have left : w.LeftPrimed 0 :=
    ⟨⟨1, 0, registered?_eq_some.mpr ⟨x, found, registered⟩, .inl scheduled⟩, x, found, stopped⟩
  refine ⟨fun quiet => ?_, by decide +kernel, by decide +kernel⟩
  exact (no_timeout_after_stop_iff reach (.outside w)).1.mp quiet left

end EventEngine.World
