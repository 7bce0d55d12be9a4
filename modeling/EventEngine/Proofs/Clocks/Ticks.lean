import EventEngine.Proofs.Clocks.Owners
import EventEngine.Proofs.Clocks.Uses

/-!
# Clocks along runs

Every step of a run is some steps of each clock. Alarms of a handler are added by its starts only,
due one period later.
-/
namespace EventEngine

variable {π : Type}

/-- A periodic alarm of a handler, added at an instant. -/
def ArmedAt (now : Instant) (h : HandlerId) (_ : Clock AlarmOwner) (a : Alarm AlarmOwner) : Prop :=
  a.callback = .handler h ∧
    ∃ period, a.period = some period ∧ a.deadline = now.deadlineAfter period

theorem Clock.Step.mono {α : Type} {kind kind' : Clock α → Alarm α → Prop} {k k' : Clock α}
    (step : Clock.Step kind k k') (weaker : ∀ k a, kind k a → kind' k a) :
    Clock.Step kind' k k' := by
  cases step with
  | start started => exact .start started
  | stop => exact .stop k
  | add callback deadline period allowed => exact .add k _ _ _ (weaker _ _ allowed)
  | remove id => exact .remove k id
  | move now member => exact .move now member
  | drop generation => exact .drop k generation

namespace World

variable {h g : HandlerId} {t u v w : World π}
  {kind kind' : Clock AlarmOwner → Alarm AlarmOwner → Prop}

theorem clock_of_length_le {c : ClockId} (beyond : w.clocks.length ≤ c) : w.clock c = {} := by
  rw [clock, List.getD_eq_getElem?_getD, List.getElem?_eq_none beyond, Option.getD_none]

/-- Only clocks that exist have alarms. -/
theorem lt_length_of_mem {c : ClockId} {a : Alarm AlarmOwner} (member : a ∈ (w.clock c).alarms) :
    c < w.clocks.length := by
  refine Nat.lt_of_not_le fun beyond => ?_
  rw [clock_of_length_le beyond] at member
  cases member

/-- Every clock makes some steps. -/
structure Ticks (kind : Clock AlarmOwner → Alarm AlarmOwner → Prop) (v w : World π) : Prop where
  length : w.clocks.length = v.clocks.length
  steps (c : ClockId) : Clock.Steps kind (v.clock c) (w.clock c)

theorem Ticks.refl : Ticks kind w w := ⟨rfl, fun _ => .refl⟩

theorem Ticks.trans (first : Ticks kind u v) (second : Ticks kind v w) : Ticks kind u w :=
  ⟨second.length.trans first.length, fun c => (first.steps c).trans (second.steps c)⟩

theorem Ticks.mono (ticks : Ticks kind v w) (weaker : ∀ k a, kind k a → kind' k a) :
    Ticks kind' v w :=
  ⟨ticks.length, fun c => (ticks.steps c).lift id fun _ _ step => step.mono weaker⟩

theorem Ticks.of_clocks (ticks : Ticks kind u v) (same : w.clocks = v.clocks) :
    Ticks kind u w := by
  refine ⟨by rw [same, ticks.length], fun c => ?_⟩
  rw [clock_congr same]
  exact ticks.steps c

theorem Ticks.note {o : Occurrence π} (ticks : Ticks kind v w) : Ticks kind v (w.note o) :=
  ticks.of_clocks rfl

theorem Ticks.modify {f : Handler π → Handler π} (ticks : Ticks kind v w) :
    Ticks kind v (w.modify g f) :=
  ticks.of_clocks rfl

/-- Nothing is kept of a clock that does not exist. -/
theorem Ticks.setClock {c : ClockId} {k : Clock AlarmOwner} {notices : List ClockNotice}
    (ticks : Ticks kind v w) (steps : c < w.clocks.length → Clock.Steps kind (w.clock c) k) :
    Ticks kind v (w.setClock c k notices) := by
  refine ⟨by simp [ticks.length], fun c' => ?_⟩
  rw [clock_setClock]
  split
  · next same =>
    obtain ⟨rfl, there⟩ := same
    exact (ticks.steps c).trans (steps there)
  · exact ticks.steps c'

theorem Ticks.disarmTimeout {x : Handler π} {c : Option ClockId} (ticks : Ticks kind v w) :
    Ticks kind v (w.disarmTimeout g x c) := by
  unfold World.disarmTimeout
  split
  · exact ticks
  · next id _ =>
    split
    · exact ticks.modify
    · exact ticks.modify.setClock fun _ => .single (.remove _ id)

theorem Ticks.armTimeout {x : Handler π} {c : ClockId} (ticks : Ticks (ArmedAt w.now g) v w) :
    Ticks (ArmedAt w.now g) v (w.armTimeout g x c) := by
  unfold World.armTimeout
  split
  · exact ticks
  · next setup _ =>
    exact (ticks.setClock fun _ => .single (.add _ _ _ _ ⟨rfl, _, rfl, rfl⟩)).modify

theorem ticks_requestStop {x : Handler π} (who : Caller) (destroys : Bool) :
    Ticks kind w (w.requestStop who g x destroys).1 := by
  unfold requestStop
  split
  · split
    · exact Ticks.refl.disarmTimeout.modify.note.note
    · exact Ticks.refl.disarmTimeout.modify.note
  · exact .refl

theorem ticks_adopted {c : ClockId} {k : Clock AlarmOwner} {notices : List ClockNotice}
    (started : (w.clock c).start = .ok (k, notices)) :
    Ticks kind w ((w.adopted g).setClock c k notices) :=
  Ticks.refl.modify.setClock fun _ => .single (.start started)

theorem ticks_installs {x : Handler π} {c : ClockId} (installs : Installs w g x c v) :
    Ticks (ArmedAt w.now g) w v := by
  have arms : Ticks (ArmedAt w.now g) w (w.armed g x c) := Ticks.refl.modify.armTimeout
  cases installs with
  | running _ => exact .refl
  | launched _ _ => exact arms.modify.note
  | refused _ _ => exact arms.disarmTimeout.note
  | crashed _ _ => exact arms.note

/-- A start adds alarms of its handler only. -/
theorem ticks_start {x : Handler π} (found : w.find? g = some x) :
    Ticks (ArmedAt w.now g) w (w.start g x).1 := by
  have started := starts found
  generalize (w.start g x).1 = w' at started
  cases started with
  | failed _ => exact Ticks.refl.modify
  | opened started installs => exact (ticks_adopted started).trans (ticks_installs installs)

theorem ticks_endStart {x : Handler π} {c : ClockId} (found : w.find? g = some x) :
    Ticks (ArmedAt w.now g) w ((w.modify g (·.entered c)).endStart g c).1 := by
  have entered : Ticks (ArmedAt w.now g) w (w.modify g (·.entered c)) := Ticks.refl.modify
  exact entered.trans (ticks_installs (installs (find?_entered found c) c))

@[simp] theorem clocks_deliver (w : World π) (f : Firing AlarmOwner) :
    (w.deliver f).clocks = w.clocks := by
  have delivered := delivers w f
  generalize w.deliver f = v at delivered
  cases delivered <;> rfl

@[simp] theorem now_deliver (w : World π) (f : Firing AlarmOwner) : (w.deliver f).now = w.now := by
  have delivered := delivers w f
  generalize w.deliver f = v at delivered
  cases delivered <;> rfl

/-- The world after a move of a timer thread, before anything is delivered. -/
def ticked (w : World π) (c : ClockId) (t : Timer AlarmOwner) : World π :=
  w.setClock c ((w.clock c).move w.now t).1 ((w.clock c).move w.now t).2.2

/-- A timer thread moves, and what it fires is delivered. -/
theorem moveTimer_eq_some {c : ClockId} {generation : Nat} : w.moveTimer c generation = some v ↔
    ∃ t, (w.clock c).thread? w.now generation = some t ∧
      v = (((w.clock c).move w.now t).2.1.map (w.ticked c t).deliver).getD (w.ticked c t) := by
  unfold moveTimer
  constructor
  · intro moved
    obtain ⟨t, ready, moved⟩ := Option.bind_eq_some_iff.mp moved
    refine ⟨t, ready, ?_⟩
    simp only at moved
    split at moved <;> next fires =>
      cases moved
      rw [fires]
      rfl
  · rintro ⟨t, ready, rfl⟩
    refine Option.bind_eq_some_iff.mpr ⟨t, ready, ?_⟩
    simp only
    split <;> next fires =>
      rw [fires]
      rfl

theorem moveTimer_eq (w : World π) (c : ClockId) (generation : Nat) : w.moveTimer c generation =
    ((w.clock c).thread? w.now generation).map fun t =>
      (((w.clock c).move w.now t).2.1.map (w.ticked c t).deliver).getD (w.ticked c t) := by
  refine Option.ext fun v => ?_
  rw [moveTimer_eq_some, Option.map_eq_some_iff]
  simp only [eq_comm]

theorem bond?_deliver (w : World π) (f : Firing AlarmOwner) :
    (w.deliver f).bond? h = w.bond? h := by
  have delivered := delivers w f
  generalize w.deliver f = v at delivered
  cases delivered with
  | ignored => rfl
  | queued _ _ _ _ => exact bond?_enqueue

theorem bond?_moveTimer {c : ClockId} {generation : Nat}
    (moved : w.moveTimer c generation = some v) :
    v.bond? h = w.bond? h := by
  obtain ⟨t, ready, rfl⟩ := moveTimer_eq_some.mp moved
  cases ((w.clock c).move w.now t).2.1 with
  | none => rfl
  | some f => exact bond?_deliver ..

theorem pendingStarts_moveTimer {c : ClockId} {generation : Nat}
    (moved : w.moveTimer c generation = some v) : v.pendingStarts h = w.pendingStarts h := by
  obtain ⟨t, -, rfl⟩ := moveTimer_eq_some.mp moved
  have ticked : (w.ticked c t).pendingStarts h = w.pendingStarts h := rfl
  cases ((w.clock c).move w.now t).2.1 with
  | none => exact ticked
  | some f =>
    have delivered := delivers (w.ticked c t) f
    simp only [Option.map_some, Option.getD_some]
    generalize (w.ticked c t).deliver f = v at delivered
    cases delivered with
    | ignored => exact ticked
    | @queued g x setup _ _ _ _ =>
      have queued : ∀ body, ((w.ticked c t).enqueue g x .head body).pendingStarts h =
          w.pendingStarts h := fun body =>
        (pendingStarts_modify (f := (·.enqueue .head body)) fun _ => rfl).trans ticked
      exact queued _

/-- What a step does about the alarm and the starts of handler `h`: nothing, unless it starts or
stops this handler or gives it a clock. -/
inductive Concerns (h : HandlerId) (v w : World π) : Prop where
  | others : w.bond? h = v.bond? h → w.pendingStarts h = v.pendingStarts h → Concerns h v w
  | start {t : World π} {x : Handler π} :
      Calm v t → t.find? h = some x → Calm (t.start h x).1 w → Concerns h v w
  | beginStart {t : World π} {x : Handler π} {k : Clock AlarmOwner}
      {notices : List ClockNotice} : Calm v t → t.find? h = some x →
      (t.clock (x.clock.getD sharedClock)).start = .ok (k, notices) →
      Calm (((t.adopted h).setClock (x.clock.getD sharedClock) k notices).modify h
        (·.opened (x.clock.getD sharedClock))) w → Concerns h v w
  | endStart {t : World π} {x : Handler π} {c : ClockId} :
      Calm v t → t.find? h = some x → c ∈ x.starts →
      Calm ((t.modify h (·.entered c)).endStart h c).1 w → Concerns h v w
  | stop {t : World π} {who : Caller} {x : Handler π} {destroys : Bool} :
      Calm v t → t.find? h = some x → x.isRunning = true →
      Calm (t.requestStop who h x destroys).1 w → Concerns h v w
  | setClock {t : World π} {x : Handler π} {c : ClockId} :
      Calm v t → t.find? h = some x → Calm (t.modify h ({ · with clock := some c })) w →
      Concerns h v w

theorem Still.concerns (still : Still h v w) : Concerns h v w :=
  .others still.bond? still.pendingStarts

theorem Act.concerns (act : Act v w) (h : HandlerId) : Concerns h v w := by
  cases act with
  | aside aside => exact .others (aside.bonds h) (aside.pending h)
  | @start t g x before found after =>
    by_cases hg : g = h
    · subst hg
      exact .start before found after
    · exact ((before.still h).trans ((still_start_ne found hg).trans (after.still h))).concerns
  | @beginStart t g x k notices before found started after =>
    by_cases hg : g = h
    · subst hg
      exact .beginStart before found started after
    · exact ((before.still h).trans ((still_beginStart_ne hg).trans (after.still h))).concerns
  | @endStart t g x c before found pending after =>
    by_cases hg : g = h
    · subst hg
      exact .endStart before found pending after
    · have entered : Still h t (t.modify g (·.entered c)) := still_modify_ne hg
      have installed := still_installs_ne (installs (find?_entered found c) c) hg
      exact ((before.still h).trans (entered.trans (installed.trans (after.still h)))).concerns
  | @stop t who g x destroys before found running after =>
    by_cases hg : g = h
    · subst hg
      exact .stop before found running after
    · have requested := still_requestStop_ne (w := t) (x := x) who destroys hg
      exact ((before.still h).trans (requested.trans (after.still h))).concerns
  | @setClock t g x c before found after =>
    by_cases hg : g = h
    · subst hg
      exact .setClock before found after
    · exact ((before.still h).trans ((still_modify_ne hg).trans (after.still h))).concerns

theorem Next.concerns (step : Next v w) (h : HandlerId) : Concerns h v w := by
  cases step.use with
  | act act => exact act.concerns h
  | timer moved => exact .others (bond?_moveTimer moved) (pendingStarts_moveTimer moved)
  | clock _ same =>
    subst same
    exact .others rfl rfl

theorem ticks_moveTimer {c : ClockId} {generation : Nat}
    (moved : w.moveTimer c generation = some v) : Ticks kind w v := by
  obtain ⟨t, ready, rfl⟩ := moveTimer_eq_some.mp moved
  have ticks : Ticks kind w (w.ticked c t) :=
    Ticks.refl.setClock fun _ => .single (.move _ (Clock.thread?_eq_some ready).1)
  cases ((w.clock c).move w.now t).2.1 with
  | none => exact ticks
  | some f => exact ticks.of_clocks (clocks_deliver ..)

theorem now_moveTimer {c : ClockId} {generation : Nat}
    (moved : w.moveTimer c generation = some v) : v.now = w.now := by
  obtain ⟨t, ready, rfl⟩ := moveTimer_eq_some.mp moved
  cases ((w.clock c).move w.now t).2.1 with
  | none => rfl
  | some f => exact now_deliver ..

/-- Alarms are added by those who are no handlers, or by the start of a handler. -/
def Added (now : Instant) (k : Clock AlarmOwner) (a : Alarm AlarmOwner) : Prop :=
  a.callback = .other ∨ ∃ h, ArmedAt now h k a

theorem Act.ticks (act : Act v w) : Ticks (Added v.now) v w := by
  cases act with
  | aside same => exact Ticks.refl.of_clocks same.clocks
  | start before found after =>
    have started := (ticks_start found).of_clocks after.clocks
    rw [before.now] at started
    exact (Ticks.refl.of_clocks before.clocks).trans (started.mono fun k a armed => .inr ⟨_, armed⟩)
  | beginStart before found started after =>
    exact ((Ticks.refl.of_clocks before.clocks).trans (ticks_adopted started)).modify.of_clocks
      after.clocks
  | @endStart _ _ _ c before found _ after =>
    have ended := (ticks_endStart (c := c) found).of_clocks after.clocks
    rw [before.now] at ended
    exact (Ticks.refl.of_clocks before.clocks).trans (ended.mono fun k a armed => .inr ⟨_, armed⟩)
  | stop before found running after =>
    exact ((Ticks.refl.of_clocks before.clocks).trans (ticks_requestStop ..)).of_clocks after.clocks
  | setClock before found after =>
    exact (Ticks.refl.of_clocks before.clocks).modify.of_clocks after.clocks

theorem Next.ticks (step : Next v w) : Ticks (Added v.now) v w := by
  cases step.use with
  | act act => exact act.ticks
  | timer moved => exact ticks_moveTimer moved
  | clock used same =>
    rw [same]
    exact Ticks.refl.setClock fun _ => .single (used.step.mono fun _ _ other => .inl other)

theorem Run.nextId_le {c : ClockId} (run : Run v w) : (v.clock c).nextId ≤ (w.clock c).nextId := by
  induction run with
  | refl => exact Nat.le_refl _
  | tail _ step ih => exact Nat.le_trans ih (step.ticks.steps c).nextId_le

/-- What a clock knows of under an id that it had issued before, it knew of then. -/
theorem Run.knows_issued {c : ClockId} {id : AlarmId} {owner : AlarmOwner} (run : Run v w)
    (issued : id < (v.clock c).nextId) (knows : (w.clock c).Knows id owner) :
    (v.clock c).Knows id owner := by
  induction run with
  | refl => exact knows
  | tail before step ih =>
    have issued := Nat.lt_of_lt_of_le issued (Run.nextId_le before)
    exact ih ((step.ticks.steps c).knows_issued issued knows)

theorem Run.length_clocks (run : Run v w) : w.clocks.length = v.clocks.length := by
  induction run with
  | refl => rfl
  | tail _ step ih => exact step.ticks.length.trans ih

/-! ## Time -/

theorem now_disarmTimeout {x : Handler π} {c : Option ClockId} :
    (w.disarmTimeout g x c).now = w.now := by
  unfold disarmTimeout
  split
  · rfl
  · split <;> rfl

theorem now_requestStop {x : Handler π} (who : Caller) (destroys : Bool) :
    (w.requestStop who g x destroys).1.now = w.now := by
  unfold requestStop
  split
  · split <;> exact now_disarmTimeout
  · rfl

theorem now_installs {x : Handler π} {c : ClockId} (installs : Installs w g x c v) :
    v.now = w.now := by
  have armed : (w.armed g x c).now = w.now := by
    unfold armed armTimeout
    split <;> rfl
  cases installs with
  | running _ => rfl
  | launched _ _ => exact armed
  | refused _ _ => exact now_disarmTimeout.trans armed
  | crashed _ _ => exact armed

theorem now_start {x : Handler π} (found : w.find? g = some x) : (w.start g x).1.now = w.now := by
  have started := starts found
  generalize (w.start g x).1 = w' at started
  cases started with
  | failed _ => rfl
  | opened _ installs => exact (now_installs installs).trans rfl

theorem now_endStart {x : Handler π} {c : ClockId} (found : w.find? g = some x) :
    ((w.modify g (·.entered c)).endStart g c).1.now = w.now :=
  (now_installs (installs (find?_entered found c) c)).trans rfl

/-- Time does not go back, and it ends. -/
theorem Next.now_le (step : Next v w) (now_le : v.now ≤ Instant.last) :
    v.now ≤ w.now ∧ w.now ≤ Instant.last := by
  have same : w.now = v.now → v.now ≤ w.now ∧ w.now ≤ Instant.last := by
    intro eq
    rw [eq]
    exact ⟨Nat.le_refl _, now_le⟩
  cases step.use with
  | act act =>
    cases act with
    | aside aside => exact aside.now now_le
    | start before found after =>
      exact same (after.now.trans ((now_start found).trans before.now))
    | beginStart before _ _ after => exact same (after.now.trans before.now)
    | endStart before found _ after =>
      exact same (after.now.trans ((now_endStart found).trans before.now))
    | stop before _ _ after => exact same (after.now.trans ((now_requestStop ..).trans before.now))
    | setClock before _ after => exact same (after.now.trans before.now)
  | timer moved => exact same (now_moveTimer moved)
  | clock _ eq => exact same (by rw [eq]; rfl)

theorem Reachable.now_le (reach : Reachable w) : w.now ≤ Instant.last :=
  reach.induct (P := fun w => w.now ≤ Instant.last) (fun _ fresh => fresh.now_le)
    fun _ _ _ now_le step => (step.now_le now_le).2

/-! ## Invariants of clocks -/

/-- What holds of new clocks and is kept by their steps holds of every clock. -/
theorem Reachable.clocks {P : Clock AlarmOwner → Prop}
    (new : ∀ config canSpawn, P { config, canSpawn })
    (step : ∀ now k k', now ≤ Instant.last → P k → Clock.Step (Added now) k k' → P k')
    (reach : Reachable w) : ∀ c, P (w.clock c) := by
  refine reach.induct (P := fun w => ∀ c, P (w.clock c)) ?_ ?_
  · intro w fresh c
    rw [clock, List.getD_eq_getElem?_getD]
    cases hk : w.clocks[c]? with
    | none => exact new {} _
    | some k =>
      obtain ⟨config, canSpawn, rfl⟩ := fresh.clocks k (List.mem_of_getElem? hk)
      exact new config canSpawn
  · intro v w reachable ih next c
    have kept : ∀ k', Clock.Steps (Added v.now) (v.clock c) k' → P k' := by
      intro k' steps
      induction steps with
      | refl => exact ih c
      | tail _ stepped holds => exact step _ _ _ reachable.now_le holds stepped
    exact kept _ (next.ticks.steps c)

theorem Reachable.sound (reach : Reachable w) (c : ClockId) : (w.clock c).Sound :=
  reach.clocks Clock.sound_new (fun _ _ _ _ sound step => step.sound sound) c

theorem Reachable.settled (reach : Reachable w) (c : ClockId) : (w.clock c).Settled :=
  reach.clocks Clock.settled_new (fun _ _ _ _ settled step => step.settled settled) c

end World

end EventEngine
