import EventEngine.Proofs.Clocks.Steps
import EventEngine.Proofs.Turns.Alarms

/-!
# How steps of a run use the clocks

Clocks are used by starts and stops of handlers, by their timer threads, and directly. All other
steps leave the clocks alone, and what handlers know of their alarms, except that a handler may be
given another clock.
-/
namespace EventEngine

variable {π : Type}

/-- What a handler knows of its alarm: its id, and the clock that it uses. -/
def Handler.bond (x : Handler π) : Option AlarmId × Option ClockId := (x.timeoutAlarm, x.clock)

@[simp] theorem Handler.bond_exit (x : Handler π) : x.exit.bond = x.bond := by
  simp [Handler.bond]

def Occurrence.isTimeout : Occurrence π → Bool
  | enqueued _ _ ⟨_, .timeout _ _⟩ => true
  | _ => false

namespace World

variable {h g : HandlerId} {t u v w : World π}

/-- Number of timeouts that have been queued on handler `h`. -/
def timeouts (w : World π) (h : HandlerId) : Nat := (w.story h).countP Occurrence.isTimeout

theorem timeouts_note {o : Occurrence π} (other : o.isTimeout = false) :
    (w.note o).timeouts h = w.timeouts h := by
  rw [timeouts, story_note]
  split
  · rw [List.countP_cons_of_neg (by simp [other]), timeouts]
  · rfl

theorem timeouts_congr (told : w.story h = v.story h) : w.timeouts h = v.timeouts h := by
  rw [timeouts, told, timeouts]

theorem Still.timeouts (still : Still h v w) : w.timeouts h = v.timeouts h := timeouts_congr still.2

def bond? (w : World π) (h : HandlerId) : Option (Option AlarmId × Option ClockId) :=
  (w.handlers[h]?).map Handler.bond

theorem bond?_eq {x : Handler π} (hx : w.handlers[h]? = some x) : w.bond? h = some x.bond := by
  rw [bond?, hx]
  rfl

theorem bond?_modify {f : Handler π → Handler π} (same : ∀ x, (f x).bond = x.bond) :
    (w.modify g f).bond? h = w.bond? h := by
  rw [bond?, handlers_modify, bond?]
  split
  · cases w.handlers[h]? with
    | none => rfl
    | some x => simp [same x]
  · rfl

theorem Still.bond? (still : Still h v w) : w.bond? h = v.bond? h := by
  have outlined : ∀ x : Handler π, x.outline.bond = x.bond := fun _ => rfl
  have same := congrArg (Option.map Handler.bond) still.1
  simpa [World.bond?, outline?, Function.comp_def, outlined] using same

/-- The clocks of the starts of handler `h` that are between their two sections. -/
def pendingStarts (w : World π) (h : HandlerId) : List ClockId :=
  (w.handlers[h]?).elim [] Handler.starts

theorem pendingStarts_eq {x : Handler π} (hx : w.handlers[h]? = some x) :
    w.pendingStarts h = x.starts := by
  rw [pendingStarts, hx]
  rfl

theorem pendingStarts_modify {f : Handler π → Handler π} (same : ∀ x, (f x).starts = x.starts) :
    (w.modify g f).pendingStarts h = w.pendingStarts h := by
  rw [pendingStarts, handlers_modify, pendingStarts]
  split
  · cases w.handlers[h]? with
    | none => rfl
    | some x => exact same x
  · rfl

theorem Still.pendingStarts (still : Still h v w) : w.pendingStarts h = v.pendingStarts h := by
  have outlined : ∀ u : World π, u.pendingStarts h = (u.outline? h).elim [] Handler.starts := by
    intro u
    rw [World.pendingStarts, outline?]
    cases u.handlers[h]? <;> rfl
  rw [outlined, still.1, outlined]

/-- The clocks are as they were, handlers know of their alarms what they knew, no start has come to
one of its sections, and no timeouts were queued and no workers started. Time may have passed. -/
structure Aside (v w : World π) : Prop where
  now : v.now ≤ Instant.last → v.now ≤ w.now ∧ w.now ≤ Instant.last
  clocks : w.clocks = v.clocks
  bonds (h : HandlerId) : w.bond? h = v.bond? h
  pending (h : HandlerId) : w.pendingStarts h = v.pendingStarts h
  timeouts (h : HandlerId) : w.timeouts h = v.timeouts h
  launches (h : HandlerId) : w.launches h = v.launches h

theorem Aside.refl : Aside w w :=
  ⟨fun now_le => ⟨Nat.le_refl _, now_le⟩, rfl, fun _ => rfl, fun _ => rfl, fun _ => rfl,
    fun _ => rfl⟩

theorem Aside.trans (first : Aside u v) (second : Aside v w) : Aside u w where
  now now_le :=
    have ⟨le, now_le'⟩ := first.now now_le
    have ⟨le', last⟩ := second.now now_le'
    ⟨Nat.le_trans le le', last⟩
  clocks := second.clocks.trans first.clocks
  bonds h := (second.bonds h).trans (first.bonds h)
  pending h := (second.pending h).trans (first.pending h)
  timeouts h := (second.timeouts h).trans (first.timeouts h)
  launches h := (second.launches h).trans (first.launches h)

theorem Aside.note {o : Occurrence π} (aside : Aside v w) (other : o.isTimeout = false)
    (unstarted : o.isLaunch = false) : Aside v (w.note o) :=
  ⟨aside.now, aside.clocks, aside.bonds, aside.pending,
    fun h => (timeouts_note other).trans (aside.timeouts h),
    fun h => (launches_note unstarted).trans (aside.launches h)⟩

theorem Aside.modify {f : Handler π → Handler π} (aside : Aside v w)
    (same : ∀ x, (f x).bond = x.bond ∧ (f x).starts = x.starts) : Aside v (w.modify g f) :=
  ⟨aside.now, aside.clocks, fun h => (bond?_modify fun x => (same x).1).trans (aside.bonds h),
    fun h => (pendingStarts_modify fun x => (same x).2).trans (aside.pending h), aside.timeouts,
    aside.launches⟩

theorem Aside.setHolder {lock : Option LockId} {who : Option Caller} (aside : Aside v w) :
    Aside v (w.setHolder lock who) :=
  ⟨by simpa using aside.now, by simp [aside.clocks],
    fun h => by rw [← aside.bonds h, bond?, handlers_setHolder, bond?],
    fun h => ((still_setHolder lock who).pendingStarts).trans (aside.pending h),
    fun h => ((still_setHolder lock who).timeouts).trans (aside.timeouts h),
    fun h => ((still_setHolder lock who).launches).trans (aside.launches h)⟩

theorem aside_advance (d : Duration) : Aside w (w.advance d) where
  now now_le := ⟨Nat.le_min.mpr ⟨Nat.le_add_right _ _, now_le⟩, Nat.min_le_right _ _⟩
  clocks := rfl
  bonds _ := rfl
  pending _ := rfl
  timeouts _ := rfl
  launches _ := rfl

theorem Calm.aside (calm : Calm v w) : Aside v w := by
  refine ⟨fun now_le => ?_, calm.clocks, fun h => (calm.still h).bond?,
    fun h => (calm.still h).pendingStarts, fun h => (calm.still h).timeouts,
    fun h => (calm.still h).launches⟩
  rw [calm.now]
  exact ⟨Nat.le_refl _, now_le⟩

/-- What an action does about clocks: nothing, or it starts or stops a handler, or gives it a clock.
A start may come in two sections. -/
inductive Act (v w : World π) : Prop where
  | aside : Aside v w → Act v w
  | start {t : World π} {g : HandlerId} {x : Handler π} :
      Calm v t → t.find? g = some x → Calm (t.start g x).1 w → Act v w
  | beginStart {t : World π} {g : HandlerId} {x : Handler π} {k : Clock AlarmOwner}
      {notices : List ClockNotice} : Calm v t → t.find? g = some x →
      (t.clock (x.clock.getD sharedClock)).start = .ok (k, notices) →
      Calm (((t.adopted g).setClock (x.clock.getD sharedClock) k notices).modify g
        (·.opened (x.clock.getD sharedClock))) w → Act v w
  | endStart {t : World π} {g : HandlerId} {x : Handler π} {c : ClockId} :
      Calm v t → t.find? g = some x → c ∈ x.starts →
      Calm ((t.modify g (·.entered c)).endStart g c).1 w → Act v w
  | stop {t : World π} {who : Caller} {g : HandlerId} {x : Handler π} {destroys : Bool} :
      Calm v t → t.find? g = some x → x.isRunning = true →
      Calm (t.requestStop who g x destroys).1 w → Act v w
  | setClock {t : World π} {g : HandlerId} {x : Handler π} {c : ClockId} :
      Calm v t → t.find? g = some x → Calm (t.modify g ({ · with clock := some c })) w → Act v w

/-- What a step does about clocks. -/
inductive Use (v w : World π) : Prop where
  | act : Act v w → Use v w
  | timer {c : ClockId} {generation : Nat} : v.moveTimer c generation = some w → Use v w
  | clock {c : ClockId} {k : Clock AlarmOwner} {notices : List ClockNotice} :
      Used v.now (v.clock c) k notices → w = v.setClock c k notices → Use v w

theorem Act.refl : Act w w := .aside .refl

theorem Act.after (calm : Calm u v) (act : Act v w) : Act u w := by
  cases act with
  | aside same => exact .aside (calm.aside.trans same)
  | start before found after => exact .start (calm.trans before) found after
  | beginStart before found started after =>
    exact .beginStart (calm.trans before) found started after
  | endStart before found pending after => exact .endStart (calm.trans before) found pending after
  | stop before found running after => exact .stop (calm.trans before) found running after
  | setClock before found after => exact .setClock (calm.trans before) found after

theorem Act.before (act : Act u v) (calm : Calm v w) : Act u w := by
  cases act with
  | aside same => exact .aside (same.trans calm.aside)
  | start before found after => exact .start before found (after.trans calm)
  | beginStart before found started after =>
    exact .beginStart before found started (after.trans calm)
  | endStart before found pending after => exact .endStart before found pending (after.trans calm)
  | stop before found running after => exact .stop before found running (after.trans calm)
  | setClock before found after => exact .setClock before found (after.trans calm)

theorem bond?_enqueue {x : Handler π} {place : Place} {body : RecordBody π} :
    (w.enqueue g x place body).bond? h = w.bond? h :=
  bond?_modify fun _ => by cases place <;> rfl

theorem Effect.act {who : Caller} (effect : Effect v who w) : Act v w := by
  cases effect with
  | none => exact .refl
  | start found => exact .start .refl found .refl
  | beginStart found started => exact .beginStart .refl found started .refl
  | endStart found pending => exact .endStart .refl found pending .refl
  | stop destroys found running => exact .stop .refl found running .refl
  | release _ _ => exact .aside (.note (.modify .refl fun _ => ⟨rfl, rfl⟩) rfl rfl)
  | signal place e _ _ =>
    exact .aside (.note (.modify .refl fun _ => by cases place <;> exact ⟨rfl, rfl⟩) rfl rfl)
  | refuse g error => exact .aside (.note .refl rfl rfl)
  | clear _ _ => exact .aside (.note (.modify .refl fun _ => ⟨rfl, rfl⟩) rfl rfl)
  | configure setup _ => exact .aside (.note (.modify .refl fun _ => ⟨rfl, rfl⟩) rfl rfl)
  | setClock c found => exact .setClock .refl found .refl
  | advance d => exact .aside (aside_advance d)

/-! ## Moves -/

theorem Aside.leave {x : Handler π} (aside : Aside v w) : Aside v (w.leave g x) := by
  have left : Aside v (w.modify g Handler.exit) :=
    aside.modify fun x => ⟨x.bond_exit, Handler.starts_exit⟩
  unfold World.leave
  split
  · split
    · exact left.note rfl rfl
    · exact (left.note rfl rfl).note rfl rfl
  · exact left

theorem aside_panicDispatch {x : Handler π} {record : Record π} :
    Aside w (w.panicDispatch g x record) := by
  have freed : Aside w ((w.setHolder x.lock none).note (.panicked g record)) :=
    .note (.setHolder .refl) rfl rfl
  simp only [panicDispatch]
  split
  · exact freed.leave
  · exact freed

theorem aside_finishDispatch {x : Handler π} {record : Record π} {since : Instant} :
    Aside w (w.finishDispatch g x record since) :=
  .note (.setHolder (.modify .refl fun _ => ⟨rfl, rfl⟩)) rfl rfl

/-- Every step uses the clocks in one of these ways. -/
theorem Next.use (step : Next v w) : Use v w := by
  cases step.happening with
  | act before effect after => exact .act ((effect.act.after before).before after)
  | take _ _ _ same => exact .act (.aside (same ▸ .modify .refl fun _ => ⟨rfl, rfl⟩))
  | «begin» _ _ _ same =>
    exact .act (.aside (same ▸ .note (.modify (.setHolder .refl) fun _ => ⟨rfl, rfl⟩) rfl rfl))
  | finish _ _ same => exact .act (.aside (same ▸ aside_finishDispatch))
  | @panic g x record since rest found dispatching same =>
    have begun : Calm v (v.setWorker g (.dispatching record since rest none)) :=
      calm_setWorker (find?_eq_some.mp found).1 dispatching rfl
    exact .act (.aside (same ▸ begun.aside.trans aside_panicDispatch))
  | leave _ _ _ same => exact .act (.aside (same ▸ .leave .refl))
  | timer moved => exact .timer moved
  | clock used same => exact .clock used same
  | lock _ same => exact .act (.aside (same ▸ .setHolder .refl))
  | unlock _ same => exact .act (.aside (same ▸ .setHolder .refl))

end World
end EventEngine
