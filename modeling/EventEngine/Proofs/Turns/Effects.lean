import EventEngine.Proofs.Clocks.Steps
import EventEngine.Proofs.Turns.Basic

/-!
# What actions and steps come to

An action has one of a few effects, and a step of a run is an effect or one of a few moves. Whatever
is kept by every step is shown for these effects and moves, and nothing else opens the definitions
of actions and moves.
-/
namespace EventEngine.World

variable {π : Type} {h g : HandlerId} {u v w : World π} {x : Handler π}

/-! ## Start and stop -/

theorem handlers_armTimeout {x y : Handler π} {c : ClockId} (hy : w.handlers[g]? = some y)
    (same : y.timeout = x.timeout) :
    (w.armTimeout g x c).handlers[g]? = some { y with
      timeoutAlarm := (y.timeout.map fun _ => (w.clock c).nextId).or y.timeoutAlarm } := by
  unfold armTimeout
  split
  · next unset =>
    rw [hy, same, unset]
    rcases y with ⟨⟩
    simp only at same
    rw [same, unset]
    rfl
  · next setup configured => simp [hy, same, configured, Clock.addPeriodic, Clock.add]

theorem handlers_disarmTimeout {x : Handler π} {c : Option ClockId}
    (hx : w.handlers[g]? = some x) :
    (w.disarmTimeout g x c).handlers[g]? = some { x with timeoutAlarm := none } := by
  unfold disarmTimeout
  split
  · next none => rw [hx, ← none]
  · split <;> simp [hx]

/-- The world once a start of a handler has taken its clock. -/
def adopted (w : World π) (g : HandlerId) : World π := w.modify g Handler.adopt

theorem beginStart_eq (w : World π) (g : HandlerId) (x : Handler π) :
    w.beginStart g x = match (w.clock (x.clock.getD sharedClock)).start with
      | .error e => (w.adopted g, .error e)
      | .ok (k, notices) => ((w.adopted g).setClock (x.clock.getD sharedClock) k notices,
        .ok (x.clock.getD sharedClock)) := by
  unfold beginStart startClock adopted
  simp only [clock_modify]
  cases (w.clock (x.clock.getD sharedClock)).start <;> rfl

/-- A start that comes to the end of its first section has started its clock. -/
theorem beginStart_eq_ok {x : Handler π} {c : ClockId} :
    w.beginStart g x = (v, .ok c) ↔ c = x.clock.getD sharedClock ∧ ∃ k notices,
      (w.clock c).start = .ok (k, notices) ∧ v = (w.adopted g).setClock c k notices := by
  rw [beginStart_eq]
  constructor
  · intro begun
    split at begun
    · cases begun
    · next k notices started =>
      cases begun
      exact ⟨rfl, k, notices, started, rfl⟩
  · rintro ⟨rfl, k, notices, started, rfl⟩
    rw [started]

/-- The world of a start between the registration of the alarm and the making of the worker. -/
def armed (w : World π) (g : HandlerId) (x : Handler π) (c : ClockId) : World π :=
  (w.modify g Handler.prepare).armTimeout g x c

theorem handlers_armed {x : Handler π} (hx : w.handlers[g]? = some x) (c : ClockId) :
    (w.armed g x c).handlers[g]? = some (x.armedWith (w.clock c).nextId) := by
  have prepared : (w.modify g Handler.prepare).handlers[g]? = some x.prepare := by
    simp [hx]
  exact handlers_armTimeout prepared rfl

theorem find?_armed {x : Handler π} (found : w.find? g = some x) (c : ClockId) :
    (w.armed g x c).find? g = some (x.armedWith (w.clock c).nextId) := by
  obtain ⟨hx, alive⟩ := find?_eq_some.mp found
  exact find?_eq_some.mpr ⟨handlers_armed hx c, alive⟩

theorem find?_launched {x : Handler π} (found : w.find? g = some x) (c : ClockId) :
    (((w.armed g x c).modify g Handler.launch).note (.started g)).find? g =
      some (x.startedWith (w.clock c).nextId) := by
  obtain ⟨hx, alive⟩ := find?_eq_some.mp found
  exact find?_eq_some.mpr ⟨by simp [handlers_armed hx, Handler.startedWith], alive⟩

/-- How the second section of a start goes: the handler has a worker, it gets one, none can be made
and the alarm is taken back, or making it panics. -/
inductive Installs (w : World π) (g : HandlerId) (x : Handler π) (c : ClockId) :
    World π → Prop where
  | running : x.isRunning = true → Installs w g x c w
  | launched : x.worker = none → x.spawnFault = none →
      Installs w g x c (((w.armed g x c).modify g Handler.launch).note (.started g))
  | refused {e : EventError} : x.worker = none → x.spawnFault = some (.failed e) →
      Installs w g x c (((w.armed g x c).disarmTimeout g (x.armedWith (w.clock c).nextId)
        (some c)).note (.spawnFailed g))
  | crashed {message : String} : x.worker = none → x.spawnFault = some (.crashed message) →
      Installs w g x c ((w.armed g x c).note (.spawnPanicked g))

theorem installs {x : Handler π} (found : w.find? g = some x) (c : ClockId) :
    Installs w g x c (w.endStart g c).1 := by
  unfold endStart
  rw [found]
  simp only
  split
  · next running => exact .running running
  · next stopped =>
    have idle : x.worker = none := by simpa [Handler.isRunning] using stopped
    have found' := find?_armed found c
    have fault : (x.armedWith (w.clock c).nextId).spawnFault = x.spawnFault := rfl
    unfold spawnWorker
    rw [← armed, found']
    simp only [fault]
    split
    · next spawns => exact .launched idle spawns
    · next failed => exact .refused idle failed
    · next crashed => exact .crashed idle crashed

/-- What the second section answers. -/
theorem endStart_result {x : Handler π} (found : w.find? g = some x) (c : ClockId) :
    (w.endStart g c).2 = if x.isRunning then .ok () else match x.spawnFault with
      | none => .ok ()
      | some e => .error e := by
  unfold endStart
  rw [found]
  simp only
  split
  · rfl
  · have found' := find?_armed found c
    have fault : (x.armedWith (w.clock c).nextId).spawnFault = x.spawnFault := rfl
    unfold spawnWorker
    rw [← armed, found']
    simp only [fault]
    split <;> next spawned => rw [spawned]

/-- How a start goes: the clock does not start, or the second section follows. -/
inductive Starts (w : World π) (g : HandlerId) (x : Handler π) : World π → Prop where
  | failed {e : StartFailure} : (w.clock (x.clock.getD sharedClock)).start = .error e →
      Starts w g x (w.adopted g)
  | opened {k : Clock AlarmOwner} {notices : List ClockNotice} {w' : World π} :
      (w.clock (x.clock.getD sharedClock)).start = .ok (k, notices) →
      Installs ((w.adopted g).setClock (x.clock.getD sharedClock) k notices) g x.adopt
        (x.clock.getD sharedClock) w' → Starts w g x w'

theorem find?_adopted {x : Handler π} (found : w.find? g = some x) :
    (w.adopted g).find? g = some x.adopt := by
  obtain ⟨hx, alive⟩ := find?_eq_some.mp found
  exact find?_eq_some.mpr ⟨by simp [adopted, hx], alive⟩

theorem starts {x : Handler π} (found : w.find? g = some x) : Starts w g x (w.start g x).1 := by
  unfold start
  rw [beginStart_eq]
  cases started : (w.clock (x.clock.getD sharedClock)).start with
  | error e => exact .failed started
  | ok result =>
    have found' : ((w.adopted g).setClock (x.clock.getD sharedClock) result.1 result.2).find? g =
        some x.adopt := find?_adopted found
    exact .opened started (installs found' _)

/-- A start fails as its clock does, or as its second section does. -/
theorem start_result {x : Handler π} (found : w.find? g = some x) :
    (w.start g x).2 = match (w.clock (x.clock.getD sharedClock)).start with
      | .error e => .error e
      | .ok _ => if x.isRunning then .ok () else match x.spawnFault with
        | none => .ok ()
        | some e => .error e := by
  unfold start
  rw [beginStart_eq]
  cases started : (w.clock (x.clock.getD sharedClock)).start with
  | error e => rfl
  | ok result =>
    have found' : ((w.adopted g).setClock (x.clock.getD sharedClock) result.1 result.2).find? g =
        some x.adopt := find?_adopted found
    exact endStart_result found' _

theorem find?_entered {x : Handler π} (found : w.find? g = some x) (c : ClockId) :
    (w.modify g (·.entered c)).find? g = some (x.entered c) := by
  obtain ⟨hx, alive⟩ := find?_eq_some.mp found
  exact find?_eq_some.mpr ⟨by simp [hx], alive⟩

theorem find?_requestStop {x : Handler π} (found : w.find? g = some x)
    (running : x.isRunning = true) (who : Caller) (destroys : Bool) :
    (w.requestStop who g x destroys).1.find? g = some x.stopRequest := by
  obtain ⟨hx, alive⟩ := find?_eq_some.mp found
  have requested : ((w.disarmTimeout g x x.clock).modify g Handler.requestStop).find? g =
      some x.stopRequest := by
    refine find?_eq_some.mpr ⟨?_, alive⟩
    simp [handlers_disarmTimeout hx, Handler.stopRequest]
  unfold requestStop
  rw [if_pos running]
  split <;> exact requested

/-! ## Effects -/

/-- What an action of a caller, or a section of a start, comes to. -/
inductive Effect (w : World π) (who : Caller) : World π → Prop where
  | none : Effect w who w
  | start {g : HandlerId} {x : Handler π} : w.find? g = some x → Effect w who (w.start g x).1
  | beginStart {g : HandlerId} {x : Handler π} {k : Clock AlarmOwner}
      {notices : List ClockNotice} : w.find? g = some x →
      (w.clock (x.clock.getD sharedClock)).start = .ok (k, notices) →
      Effect w who (((w.adopted g).setClock (x.clock.getD sharedClock) k notices).modify g
        (·.opened (x.clock.getD sharedClock)))
  | endStart {g : HandlerId} {x : Handler π} {c : ClockId} : w.find? g = some x → c ∈ x.starts →
      Effect w who ((w.modify g (·.entered c)).endStart g c).1
  | stop {g : HandlerId} {x : Handler π} (destroys : Bool) : w.find? g = some x →
      x.isRunning = true → Effect w who (w.requestStop who g x destroys).1
  | release {g : HandlerId} {x : Handler π} : w.find? g = some x → x.worker = none →
      Effect w who ((w.modify g Handler.release).note (.destroyed g))
  | signal {g : HandlerId} {x : Handler π} (place : Place) {registration : Registration}
      (e : Event π) : w.find? g = some x → x.types.resolve e.typeName = .ok registration →
      Effect w who (w.enqueue g x place (.event registration e))
  | refuse (g : HandlerId) (error : EventError) : Effect w who (w.note (.refused g error))
  | clear {g : HandlerId} {x : Handler π} : w.find? g = some x → x.queue.isEmpty = false →
      Effect w who ((w.modify g Handler.clear).note (.cleared g x.queue.events))
  | configure {g : HandlerId} {x : Handler π} (setup : TimeoutSetup π) : w.find? g = some x →
      Effect w who ((w.modify g ({ · with timeout := some setup })).note
        (.timeoutConfigured g setup.interval))
  | setClock {g : HandlerId} {x : Handler π} (c : ClockId) : w.find? g = some x →
      Effect w who (w.modify g ({ · with clock := some c }))
  | advance (d : Duration) : Effect w who (w.advance d)

theorem withHandler_effect {who : Caller} {f : Handler π → World π × Progress}
    (step : ∀ x, w.find? g = some x → Effect w who (f x).1) :
    Effect w who (w.withHandler g f).1 := by
  unfold withHandler
  split
  · next x found => exact step x found
  · exact .none

theorem requestStop_effect (found : w.find? g = some x) (who : Caller) (destroys : Bool) :
    Effect w who (w.requestStop who g x destroys).1 := by
  by_cases running : x.isRunning = true
  · exact .stop destroys found running
  · rw [requestStop, if_neg running]
    exact .none

theorem concludeDestroy_effect (who : Caller) : Effect w who (w.concludeDestroy g).1 := by
  unfold concludeDestroy
  split
  · exact .none
  · next x found =>
    split
    · exact .none
    · next stopped => exact .release found (by simpa [Handler.isRunning] using stopped)

@[simp] theorem clocks_concludeDestroy (w : World π) (g : HandlerId) :
    (w.concludeDestroy g).1.clocks = w.clocks := by
  unfold concludeDestroy
  split
  · rfl
  · split <;> rfl

/-- The worker that asks for its own end is still there when the handler is to be released. -/
theorem destroy_running (found : w.find? g = some x) (running : x.isRunning = true) (who : Caller) :
    ((w.requestStop who g x true).1.concludeDestroy g).1 = (w.requestStop who g x true).1 := by
  have still := find?_requestStop found running who true
  have running' : x.stopRequest.isRunning = true := running
  generalize w.requestStop who g x true = result at still
  simp [concludeDestroy, still, running']

theorem perform_effect (w : World π) (who : Caller) (action : Action π) :
    Effect w who (w.perform who action).1 := by
  have nothing : Effect w who w := .none
  cases action with
  | start g => exact withHandler_effect fun x found => .start found
  | stop g =>
    refine withHandler_effect fun x found => ?_
    have requested := requestStop_effect found who false
    split <;> next answered => rw [answered] at requested; exact requested
  | destroy g =>
    refine withHandler_effect fun x found => ?_
    have requested := requestStop_effect found who true
    split
    · next answered => rw [answered] at requested; exact requested
    · next v answered =>
      by_cases running : x.isRunning = true
      · have same := destroy_running found running who
        rw [answered] at requested same
        rw [Prod.map_fst, same]
        exact requested
      · have same : w = v := by
          rw [requestStop, if_neg running] at answered
          exact congrArg Prod.fst answered
        rw [← same]
        exact concludeDestroy_effect who
  | signal g place typeName payload script =>
    refine withHandler_effect fun x found => ?_
    simp only [Prod.map_fst, signal]
    split
    · next registration resolved => exact .signal place _ found resolved
    · exact .refuse g _
  | clear g =>
    refine withHandler_effect fun x found => ?_
    simp only [clear]
    split
    · exact nothing
    · next full => exact .clear found ((Bool.not_eq_true _).mp full)
  | setTimeout g interval context script =>
    exact withHandler_effect fun x found => .configure ⟨interval, context, script⟩ found
  | setClock g c => exact withHandler_effect fun x found => .setClock c found
  | isRunning g => exact withHandler_effect fun x _ => nothing
  | isCurrent g => exact withHandler_effect fun x _ => nothing
  | pending g => exact withHandler_effect fun x _ => nothing
  | name g => exact withHandler_effect fun x _ => nothing
  | describe g => exact withHandler_effect fun x _ => nothing
  | types g => exact withHandler_effect fun x _ => nothing
  | containsType g typeName => exact withHandler_effect fun x _ => nothing
  | advance d => exact .advance d
  | threadName => exact nothing
  | isLockFree lock => exact nothing
  | block => exact nothing
  | panic => exact nothing

/-- The end of a pause does at most what a destruction does. -/
theorem pauseEnd?_cases {pause : Pause} {reply : Reply}
    (ended : w.pauseEnd? pause = some (v, reply)) : v = w ∨ ∃ g, v = (w.concludeDestroy g).1 := by
  unfold pauseEnd? at ended
  split at ended
  · cases ended
  · next g exits destroys =>
    split at ended
    · cases ended
      exact .inl rfl
    · split at ended
      · cases ended
      · split at ended
        · exact .inr ⟨g, (congrArg Prod.fst (Option.some.inj ended)).symm⟩
        · cases ended
          exact .inl rfl

theorem pauseEnd?_effect {pause : Pause} {reply : Reply} (who : Caller)
    (ended : w.pauseEnd? pause = some (v, reply)) : Effect w who v := by
  rcases pauseEnd?_cases ended with rfl | ⟨g, rfl⟩
  · exact .none
  · exact concludeDestroy_effect who

/-- Only a panic panics. -/
theorem perform_panics {who : Caller} {action : Action π}
    (panics : (w.perform who action).2 = .panics) : action = .panic := by
  have answers : ∀ result, replyOf result ≠ .panics := by
    intro result
    cases result <;> simp [replyOf]
  cases action with
  | panic => rfl
  | _ =>
    simp only [perform, withHandler] at panics
    grind

/-! ## Workers are left alone by actions -/

/-- The worker of handler `h`, if it has one, is where it was. -/
def SameWorker (h : HandlerId) (w w' : World π) : Prop :=
  ∀ x worker, w.handlers[h]? = some x → x.worker = some worker →
    ∃ x', w'.handlers[h]? = some x' ∧ x'.worker = some worker

theorem SameWorker.refl : SameWorker h w w := fun x _ hx hworker => ⟨x, hx, hworker⟩

theorem SameWorker.note {o : Occurrence π} (same : SameWorker h v w) :
    SameWorker h v (w.note o) := same

theorem SameWorker.setClock {c : ClockId} {k : Clock AlarmOwner} {notices : List ClockNotice}
    (same : SameWorker h v w) : SameWorker h v (w.setClock c k notices) := same

theorem SameWorker.modify {f : Handler π → Handler π} (same : SameWorker h v w)
    (keeps : ∀ x, w.handlers[g]? = some x → x.worker.isSome → (f x).worker = x.worker) :
    SameWorker h v (w.modify g f) := by
  intro x worker hx hworker
  obtain ⟨y, hy, hworker'⟩ := same x worker hx hworker
  by_cases hg : g = h
  · subst hg
    refine ⟨f y, by simp [hy], ?_⟩
    rw [keeps y hy (by simp [hworker']), hworker']
  · exact ⟨y, by simp [hg, hy], hworker'⟩

theorem SameWorker.armTimeout {x : Handler π} {c : ClockId} (same : SameWorker h v w) :
    SameWorker h v (w.armTimeout g x c) := by
  unfold World.armTimeout
  split
  · exact same
  · exact .modify (.setClock same) fun _ _ _ => rfl

theorem SameWorker.disarmTimeout {x : Handler π} {c : Option ClockId} (same : SameWorker h v w) :
    SameWorker h v (w.disarmTimeout g x c) := by
  unfold World.disarmTimeout
  split
  · exact same
  · split
    · exact .modify same fun _ _ _ => rfl
    · exact .setClock (.modify same fun _ _ _ => rfl)

theorem sameWorker_installs {x : Handler π} {c : ClockId} (hx : w.handlers[g]? = some x)
    (installs : Installs w g x c v) : SameWorker h w v := by
  have armed : SameWorker h w (w.armed g x c) := .armTimeout (.modify .refl fun _ _ _ => rfl)
  cases installs with
  | running _ => exact .refl
  | launched idle _ =>
    refine .note (.modify armed fun y hy present => ?_)
    rw [handlers_armed hx c] at hy
    cases hy
    simp [Handler.armedWith, Handler.prepare, idle] at present
  | refused _ _ => exact .note armed.disarmTimeout
  | crashed _ _ => exact .note armed

theorem SameWorker.trans (first : SameWorker h u v) (second : SameWorker h v w) :
    SameWorker h u w := fun x worker hx hworker => by
  obtain ⟨y, hy, hworker'⟩ := first x worker hx hworker
  exact second y worker hy hworker'

theorem sameWorker_adopted : SameWorker h w (w.adopted g) := .modify .refl fun _ _ _ => rfl

theorem sameWorker_start {x : Handler π} (found : w.find? g = some x) :
    SameWorker h w (w.start g x).1 := by
  have started := starts found
  generalize (w.start g x).1 = w' at started
  cases started with
  | failed _ => exact sameWorker_adopted
  | opened _ installs =>
    have hx := (find?_eq_some.mp (find?_adopted found)).1
    exact sameWorker_adopted.setClock.trans (sameWorker_installs hx installs)

theorem sameWorker_requestStop {x : Handler π} (who : Caller) (destroys : Bool) :
    SameWorker h w (w.requestStop who g x destroys).1 := by
  have requested : SameWorker h w ((w.disarmTimeout g x x.clock).modify g Handler.requestStop) :=
    .modify (.disarmTimeout .refl) fun _ _ _ => rfl
  unfold requestStop
  split
  · split
    · exact requested.note.note
    · exact requested.note
  · exact .refl

/-- No action changes what a worker is doing: only its own moves do. -/
theorem Effect.sameWorker {who : Caller} (effect : Effect v who w) : SameWorker h v w := by
  cases effect with
  | none => exact .refl
  | start found => exact sameWorker_start found
  | beginStart _ _ => exact .modify sameWorker_adopted.setClock fun _ _ _ => rfl
  | @endStart g x c found _ =>
    have entered := find?_entered found c
    have enters : SameWorker h v (v.modify g (·.entered c)) := .modify .refl fun _ _ _ => rfl
    exact enters.trans
      (sameWorker_installs (find?_eq_some.mp entered).1 (installs entered c))
  | stop destroys _ _ => exact sameWorker_requestStop who destroys
  | release _ _ => exact .note (.modify .refl fun _ _ _ => rfl)
  | signal place e _ _ => exact .note (.modify .refl fun y _ _ => by cases place <;> rfl)
  | refuse g error => exact .note .refl
  | clear _ _ => exact .note (.modify .refl fun _ _ _ => rfl)
  | configure setup _ => exact .note (.modify .refl fun _ _ _ => rfl)
  | setClock c _ => exact .modify .refl fun _ _ _ => rfl
  | advance d => exact .refl

/-! ## Steps -/

/-- Someone who is no handler uses a clock, and this is noted. -/
inductive Used (now : Instant) : Clock AlarmOwner → Clock AlarmOwner → List ClockNotice → Prop where
  | start {k k' : Clock AlarmOwner} {notices : List ClockNotice} : k.start = .ok (k', notices) →
      Used now k k' notices
  | stop (k : Clock AlarmOwner) : Used now k k.stop.1 k.stop.2
  | addOnce (k : Clock AlarmOwner) (deadline : Instant) :
      Used now k (k.addOnce .other deadline).1 (k.addOnce .other deadline).2.2
  | addPeriodic (k : Clock AlarmOwner) (period : Duration) :
      Used now k (k.addPeriodic now .other period).1 (k.addPeriodic now .other period).2.2
  | remove (k : Clock AlarmOwner) (id : AlarmId) : Used now k (k.remove id).1 (k.remove id).2.2
  /-- A callback panics, and its thread ends. -/
  | panic (k : Clock AlarmOwner) (generation : Nat) : Used now k (k.dropTimer generation) []

theorem Used.step {now : Instant} {k k' : Clock AlarmOwner} {notices : List ClockNotice}
    (used : Used now k k' notices) : Clock.Step (fun _ a => a.callback = .other) k k' := by
  cases used with
  | start started => exact .start started
  | stop => exact .stop k
  | addOnce deadline => exact .add k .other deadline none rfl
  | addPeriodic period => exact .add k .other _ _ rfl
  | remove id => exact .remove k id
  | panic generation => exact .drop k generation

/-- What happens in a step. -/
inductive Happening (v w : World π) : Prop where
  | act {t u : World π} {who : Caller} : Calm v t → Effect t who u → Calm u w → Happening v w
  | take {g : HandlerId} {x : Handler π} {record : Record π} {rest : List (Record π)} :
      v.find? g = some x → x.worker = some .idle →
      x.queue = { events := record :: rest, aborted := false } →
      w = v.modify g ({ · with queue := { events := rest }, worker := some (.holding record) }) →
      Happening v w
  | begin {g : HandlerId} {x : Handler π} {record : Record π} :
      v.find? g = some x → x.worker = some (.holding record) → v.canDispatch x.lock = true →
      w = ((v.setHolder x.lock (some (.worker g))).setWorker g
        (.dispatching record v.now record.body.script none)).note (.began g record) →
      Happening v w
  | finish {g : HandlerId} {x : Handler π} {record : Record π} {since : Instant} :
      v.find? g = some x → x.worker = some (.dispatching record since [] none) →
      w = v.finishDispatch g x record since → Happening v w
  | panic {g : HandlerId} {x : Handler π} {record : Record π} {since : Instant}
      {rest : List (Action π)} :
      v.find? g = some x → x.worker = some (.dispatching record since (.panic :: rest) none) →
      w = (v.setWorker g (.dispatching record since rest none)).panicDispatch g x record →
      Happening v w
  | leave {g : HandlerId} {x : Handler π} : v.find? g = some x → x.worker = some .idle →
      x.queue.aborted = true → w = v.leave g x → Happening v w
  | timer {c : ClockId} {generation : Nat} : v.moveTimer c generation = some w → Happening v w
  | clock {c : ClockId} {k : Clock AlarmOwner} {notices : List ClockNotice} :
      Used v.now (v.clock c) k notices → w = v.setClock c k notices → Happening v w
  | lock {l : LockId} : v.holder l = none → w = v.setHolder (some l) (some .outside) →
      Happening v w
  | unlock {l : LockId} : v.holder l = some .outside → w = v.setHolder (some l) none →
      Happening v w

/-- A dispatch performs an action on a world that differs only in its script, and so does what
follows, unless it panics. -/
theorem calm_dispatchAction {x : Handler π} {record : Record π} {since : Instant}
    {action : Action π} {rest : List (Action π)} (hx : w.handlers[g]? = some x)
    (hworker : x.worker = some (.dispatching record since (action :: rest) none))
    (calm : action ≠ .panic) : ∃ t, Calm w t ∧
      Calm (t.perform (.worker g) action).1 (w.dispatchAction g x record since action rest) := by
  refine ⟨w.setWorker g (.dispatching record since rest none), calm_setWorker hx hworker rfl, ?_⟩
  have hx' : (w.setWorker g (.dispatching record since rest none)).handlers[g]? =
      some { x with worker := some (.dispatching record since rest none) } := by
    simp [setWorker, hx]
  have same := (perform_effect (w.setWorker g (.dispatching record since rest none)) (.worker g)
    action).sameWorker (h := g)
  unfold dispatchAction
  split
  · next performed =>
    rw [performed]
    exact calm_note rfl fun _ => rfl
  · next performed =>
    rw [performed] at same ⊢
    obtain ⟨y, hy, hworker'⟩ := same _ _ hx' rfl
    exact calm_setWorker hy hworker' rfl
  · next performed => exact absurd (perform_panics (congrArg Prod.snd performed)) calm

/-- Whoever performs an action does so on a world in which only scripts differ. -/
theorem Calls.calm {action : Action π} (calls : Calls action v w) (calm : action ≠ .panic) :
    ∃ t who, Calm v t ∧ Calm (t.perform who action).1 w := by
  cases calls with
  | outside => exact ⟨v, .outside, .refl, .refl⟩
  | dispatch found hworker =>
    obtain ⟨t, before, after⟩ := calm_dispatchAction (find?_eq_some.mp found).1 hworker calm
    exact ⟨t, _, before, after⟩

theorem calm_resume {x : Handler π} {record : Record π} {since : Instant}
    {script : List (Action π)} {pause : Option Pause} {reply : Reply}
    (hx : w.handlers[g]? = some x)
    (hworker : x.worker = some (.dispatching record since script pause)) :
    Calm w (w.resume g record since script reply) := by
  have set : Calm w (w.setWorker g (.dispatching record since script none)) :=
    calm_setWorker hx hworker rfl
  exact set.trans (calm_note rfl fun _ => rfl)

/-- A worker that finds its queue aborted leaves; otherwise it takes the head, if there is one. -/
theorem wait_cases (q : Queue (Record π)) :
    (q.aborted = true ∧ q.wait = some (.failed .waitAbort, q)) ∨
    (q.aborted = false ∧ q.events = [] ∧ q.wait = none) ∨
    ∃ record rest, q = { events := record :: rest, aborted := false } ∧
      q.wait = some (.event record, { events := rest }) := by
  rcases q with ⟨_ | ⟨record, rest⟩, _ | _⟩
  · exact .inr (.inl ⟨rfl, rfl, rfl⟩)
  · exact .inl ⟨rfl, rfl⟩
  · exact .inr (.inr ⟨record, rest, rfl, rfl⟩)
  · exact .inl ⟨rfl, rfl⟩

theorem moveWorker_happening (moved : w.moveWorker g = some v) : Happening w v := by
  unfold moveWorker at moved
  obtain ⟨x, found, moved⟩ := Option.bind_eq_some_iff.mp moved
  obtain ⟨worker, hworker, moved⟩ := Option.bind_eq_some_iff.mp moved
  obtain ⟨hx, -⟩ := find?_eq_some.mp found
  cases worker with
  | idle =>
    rcases wait_cases x.queue with
      ⟨aborted, waited⟩ | ⟨-, -, waited⟩ | ⟨record, rest, queued, waited⟩
    · simp only [waited, Option.some.injEq] at moved
      exact .leave found hworker aborted moved.symm
    · simp [waited] at moved
    · simp only [waited, Option.some.injEq] at moved
      exact .take found hworker queued moved.symm
  | holding record =>
    simp only at moved
    split at moved
    · next free =>
      rw [now_setHolder] at moved
      exact .begin found hworker free (Option.some.inj moved).symm
    · cases moved
  | dispatching record since script pause =>
    cases pause with
    | some pause =>
      simp only at moved
      obtain ⟨⟨u, reply⟩, ended, rfl⟩ := Option.map_eq_some_iff.mp moved
      have effect := pauseEnd?_effect (.worker g) ended
      obtain ⟨y, hy, hworker'⟩ := effect.sameWorker x _ hx hworker
      exact .act .refl effect (calm_resume hy hworker')
    | none =>
      cases script with
      | nil => exact .finish found hworker (Option.some.inj moved).symm
      | cons action rest =>
        have moved := (Option.some.inj moved).symm
        by_cases calm : action = .panic
        · subst calm
          exact .panic found hworker moved
        · obtain ⟨t, before, after⟩ := calm_dispatchAction hx hworker calm
          rw [moved]
          exact .act before (perform_effect t (.worker g) action) after

/-- Every step is one of these. -/
theorem Next.happening (step : Next v w) : Happening v w := by
  have unchanged : Effect v .outside v := .none
  have nothing : Happening v v := .act .refl unchanged .refl
  cases step with
  | act action => exact .act .refl (perform_effect v .outside action) .refl
  | conclude ended => exact .act .refl (pauseEnd?_effect .outside ended) .refl
  | worker moved => exact moveWorker_happening moved
  | timer moved => exact .timer moved
  | beginStart found begun =>
    obtain ⟨rfl, k, notices, started, rfl⟩ := beginStart_eq_ok.mp begun
    have effect : Effect v .outside _ := .beginStart found started
    exact .act .refl effect .refl
  | endStart found member =>
    have effect : Effect v .outside _ := .endStart found member
    exact .act .refl effect .refl
  | lock free => exact .lock free rfl
  | unlock held => exact .unlock held rfl
  | release g =>
    unfold World.release
    split
    · next released =>
      obtain ⟨x, found, hworker⟩ := Option.bind_eq_some_iff.mp released
      exact .act .refl unchanged (calm_resume (find?_eq_some.mp found).1 hworker)
    · exact nothing
  | startClock c =>
    unfold World.startClock
    split
    · next started => exact .clock (.start started) rfl
    · exact nothing
  | stopClock c => exact .clock (.stop _) rfl
  | addAlarm c deadline => exact .clock (.addOnce _ deadline) rfl
  | addPeriodicAlarm c period => exact .clock (.addPeriodic _ period) rfl
  | removeAlarm c id => exact .clock (.remove _ id) rfl
  | panicTimer c generation => exact .clock (.panic _ generation) rfl

end EventEngine.World
