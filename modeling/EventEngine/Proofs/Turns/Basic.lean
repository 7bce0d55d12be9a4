import EventEngine.Proofs.Runs

/-!
# What a step does to one handler

A step of a run leaves a handler as it was, or it makes one of a few turns with it. `Turn` lists
these turns, with what each of them adds to the handler's story: the part of the history that is
about its records and its workers. How far a script has got does not count here.
-/
namespace EventEngine

variable {π : Type}

namespace Occurrence

/-- The handler whose records or worker the occurrence is about. -/
def milestone? : Occurrence π → Option HandlerId
  | enqueued h _ _ => some h
  | began h _ => some h
  | finished h _ => some h
  | panicked h _ => some h
  | cleared h _ => some h
  | started h => some h
  | spawnPanicked h => some h
  | stopped h => some h
  | _ => none

def notice? (c : ClockId) : Occurrence π → Option ClockNotice
  | clock c' notice => if c' = c then some notice else none
  | _ => none

def isPanicked : Occurrence π → Bool
  | panicked _ _ => true
  | _ => false

def isStarted : Occurrence π → Bool
  | started _ => true
  | _ => false

/-- Whether a start came to the making of a worker, which was started or panicked. -/
def isLaunch : Occurrence π → Bool
  | started _ => true
  | spawnPanicked _ => true
  | _ => false

/-- Whether an alarm was left behind: a dispatcher panicked, or the making of a worker. -/
def isCrash : Occurrence π → Bool
  | panicked _ _ => true
  | spawnPanicked _ => true
  | _ => false

def isStopped : Occurrence π → Bool
  | stopped _ => true
  | _ => false

end Occurrence

/-- What has happened to the records and the workers of a handler, the latest first. -/
def World.story (w : World π) (h : HandlerId) : List (Occurrence π) :=
  w.history.filter (·.milestone? = some h)

/-- The worker, whatever is left of its script. -/
def Worker.outline : Worker π → Worker π
  | dispatching record since _ _ => dispatching record since [] none
  | worker => worker

namespace Handler

/-- The handler, whatever is left of the script of its worker. -/
def outline (x : Handler π) : Handler π := { x with worker := x.worker.map Worker.outline }

/-- What may be queued: an event under the registration of its type, or a timeout of the alarm that
is registered, under the configuration in force. -/
def Admits (x : Handler π) : RecordBody π → Prop
  | .event registration e => x.types.resolve e.typeName = .ok registration
  | .timeout setup e => x.timeout = some setup ∧ x.timeoutAlarm = some e.alarm

/-- What the exit of the worker adds to the story. -/
def exitStory (h : HandlerId) (x : Handler π) : List (Occurrence π) :=
  if x.stopRequested then
    .stopped h :: if x.queue.isEmpty then [] else [.cleared h x.queue.events]
  else []

/-- A start comes to its second section, at once after the first or later. The handler has a clock
and pending starts then. -/
inductive Enters (x : Handler π) : Option ClockId → List ClockId → Prop where
  | atOnce : Enters x (some (x.clock.getD sharedClock)) x.starts
  | later {c : ClockId} : c ∈ x.starts → Enters x x.clock (x.starts.erase c)

/-- The handler once a start has registered the alarm `id` for its timeout. -/
def armedWith (x : Handler π) (id : AlarmId) : Handler π :=
  { x.prepare with timeoutAlarm := (x.timeout.map fun _ => id).or x.timeoutAlarm }

/-- The handler once a start has given it a worker; `id` is the alarm of its timeout. -/
def startedWith (x : Handler π) (id : AlarmId) : Handler π := (x.armedWith id).launch

/-- The handler once a start could not make a worker. -/
def startRefused (x : Handler π) : Handler π := { x.prepare with timeoutAlarm := none }

/-- The handler once it has been asked to stop. -/
def stopRequest (x : Handler π) : Handler π := { x with timeoutAlarm := none }.requestStop

/-- One turn of handler `h`, with what it adds to the story. -/
inductive Turn (h : HandlerId) : Handler π → List (Occurrence π) → Handler π → Prop where
  | enqueue {x : Handler π} (place : Place) (body : RecordBody π) : x.Admits body →
      Turn h x [.enqueued h place (x.nextRecord body)] (x.enqueue place body)
  | clear {x : Handler π} : x.queue.isEmpty = false →
      Turn h x [.cleared h x.queue.events] x.clear
  | configure {x : Handler π} (setup : TimeoutSetup π) :
      Turn h x [] { x with timeout := some setup }
  | setClock {x : Handler π} (c : ClockId) : Turn h x [] { x with clock := some c }
  | beginStart {x : Handler π} : Turn h x [] (x.adopt.opened (x.clock.getD sharedClock))
  | skipStart {x : Handler π} {c : ClockId} : x.isRunning = true → c ∈ x.starts →
      Turn h x [] (x.entered c)
  | start {x : Handler π} (id : AlarmId) {clock : Option ClockId} {starts : List ClockId} :
      x.worker = none → x.Enters clock starts →
      Turn h x [.started h] ({ x with clock, starts }.startedWith id)
  | refuse {x : Handler π} {clock : Option ClockId} {starts : List ClockId} :
      x.worker = none → x.Enters clock starts → Turn h x [] { x with clock, starts }.startRefused
  | crash {x : Handler π} (id : AlarmId) {clock : Option ClockId} {starts : List ClockId} :
      x.worker = none → x.Enters clock starts →
      Turn h x [.spawnPanicked h] ({ x with clock, starts }.armedWith id)
  | requestStop {x : Handler π} : x.isRunning = true → Turn h x [] x.stopRequest
  | take {x : Handler π} (record : Record π) (rest : List (Record π)) :
      x.worker = some .idle → x.queue = { events := record :: rest, aborted := false } →
      Turn h x [] { x with queue := { events := rest }, worker := some (.holding record) }
  | begin {x : Handler π} (record : Record π) (since : Instant) :
      x.worker = some (.holding record) →
      Turn h x [.began h record] { x with worker := some (.dispatching record since [] none) }
  | finish {x : Handler π} (record : Record π) (since : Instant) (elapsed : Duration) :
      x.worker = some (.dispatching record since [] none) →
      Turn h x [.finished h record]
        { x.recordDispatch record.body elapsed with worker := some .idle }
  | panic {x : Handler π} (record : Record π) (since : Instant) :
      x.worker = some (.dispatching record since [] none) →
      Turn h x (x.exitStory h ++ [.panicked h record]) x.exit
  | leave {x : Handler π} : x.worker = some .idle → x.queue.aborted = true →
      Turn h x (x.exitStory h) x.exit
  | destroy {x : Handler π} : x.worker = none → Turn h x [] x.release

@[simp] theorem timeout_outline (x : Handler π) : x.outline.timeout = x.timeout := rfl
@[simp] theorem timeoutAlarm_outline (x : Handler π) :
    x.outline.timeoutAlarm = x.timeoutAlarm := rfl
@[simp] theorem clock_outline (x : Handler π) : x.outline.clock = x.clock := rfl
@[simp] theorem isRunning_outline (x : Handler π) : x.outline.isRunning = x.isRunning := by
  simp [isRunning, outline]
@[simp] theorem held_outline (x : Handler π) : x.outline.held = x.held := by
  rcases hx : x.worker with _ | _ | _ | _ <;> simp [held, outline, hx, Worker.outline, Worker.held]

theorem new_outline {x : Handler π} (new : x.New) : x.outline.New := by
  obtain ⟨config, canSpawn, registrations, lock, clock, handles, rfl⟩ := new
  exact ⟨config, canSpawn, registrations, lock, clock, handles, rfl⟩

theorem outline_exit (x : Handler π) : x.exit.outline = x.outline.exit := by
  unfold exit
  split
  · next requested => rw [if_pos (show x.outline.stopRequested = true from requested)]; rfl
  · next kept => rw [if_neg (show ¬ x.outline.stopRequested = true from kept)]; rfl

/-! ## What an exit changes -/

section Exit

variable {x : Handler π}

@[simp] theorem worker_exit : x.exit.worker = none := by
  unfold exit
  split <;> rfl

@[simp] theorem timeout_exit : x.exit.timeout = x.timeout := by
  unfold exit
  split <;> rfl

@[simp] theorem timeoutAlarm_exit : x.exit.timeoutAlarm = x.timeoutAlarm := by
  unfold exit
  split <;> rfl

@[simp] theorem clock_exit : x.exit.clock = x.clock := by
  unfold exit
  split <;> rfl

@[simp] theorem handles_exit : x.exit.handles = x.handles := by
  unfold exit
  split <;> rfl

@[simp] theorem isDestroyed_exit : x.exit.isDestroyed = x.isDestroyed := by
  rw [isDestroyed, handles_exit, isDestroyed]

@[simp] theorem starts_exit : x.exit.starts = x.starts := by
  unfold exit
  split <;> rfl

@[simp] theorem issued_exit : x.exit.issued = x.issued := by
  unfold exit
  split <;> rfl

@[simp] theorem isRunning_exit : x.exit.isRunning = false := by simp [isRunning]

/-- An exit starts no worker. -/
@[simp] theorem countP_isStarted_exitStory :
    (x.exitStory h).countP Occurrence.isStarted = 0 := by
  unfold exitStory
  split
  · split <;> rfl
  · rfl

@[simp] theorem countP_isLaunch_exitStory :
    (x.exitStory h).countP Occurrence.isLaunch = 0 := by
  unfold exitStory
  split
  · split <;> rfl
  · rfl

/-- A turn changes neither the settings nor the types. -/
theorem Turn.fixed {x' : Handler π} {notes : List (Occurrence π)} (turn : Turn h x notes x') :
    x'.config = x.config ∧ x'.canSpawn = x.canSpawn ∧ x'.types = x.types := by
  have left : x.exit.config = x.config ∧ x.exit.canSpawn = x.canSpawn ∧ x.exit.types = x.types := by
    unfold exit
    split <;> exact ⟨rfl, rfl, rfl⟩
  cases turn with
  | enqueue place body _ => cases place <;> exact ⟨rfl, rfl, rfl⟩
  | panic _ _ _ => exact left
  | leave _ _ => exact left
  | _ => exact ⟨rfl, rfl, rfl⟩

end Exit

end Handler

namespace World

def outline? (w : World π) (h : HandlerId) : Option (Handler π) :=
  (w.handlers[h]?).map Handler.outline

theorem outline?_eq_some {w : World π} {h : HandlerId} {x : Handler π} :
    w.outline? h = some x ↔ ∃ y, w.handlers[h]? = some y ∧ y.outline = x := by
  simp [outline?]

/-- Nothing happens to handler `h`. -/
def Still (h : HandlerId) (w w' : World π) : Prop :=
  w'.outline? h = w.outline? h ∧ w'.story h = w.story h

/-- Handler `h` makes one turn. -/
def Turned (h : HandlerId) (w w' : World π) : Prop :=
  ∃ x notes x', w.outline? h = some x ∧ Handler.Turn h x notes x' ∧
    w'.outline? h = some x' ∧ w'.story h = notes ++ w.story h

/-- At most one turn of handler `h`. -/
def Evolves (h : HandlerId) (w w' : World π) : Prop := Still h w w' ∨ Turned h w w'

variable {h g : HandlerId} {u v w : World π}

theorem Still.refl : Still h w w := ⟨rfl, rfl⟩

theorem Still.trans (first : Still h u v) (second : Still h v w) : Still h u w :=
  ⟨second.1.trans first.1, second.2.trans first.2⟩

theorem Still.symm (still : Still h v w) : Still h w v := ⟨still.1.symm, still.2.symm⟩

theorem Still.then (first : Still h u v) (second : Evolves h v w) : Evolves h u w := by
  rcases second with second | ⟨x, notes, x', hx, turn, hx', told⟩
  · exact .inl (first.trans second)
  · exact .inr ⟨x, notes, x', by rw [← first.1]; exact hx, turn, hx', by rw [told, first.2]⟩

theorem Evolves.then (first : Evolves h u v) (second : Still h v w) : Evolves h u w := by
  rcases first with first | ⟨x, notes, x', hx, turn, hx', told⟩
  · exact .inl (first.trans second)
  · exact .inr ⟨x, notes, x', hx, turn, by rw [second.1]; exact hx', by rw [second.2, told]⟩

theorem Still.find? {x : Handler π} (still : Still h v w) (found : v.find? h = some x) :
    ∃ y, w.find? h = some y ∧ y.outline = x.outline := by
  obtain ⟨hx, alive⟩ := find?_eq_some.mp found
  have outlined : w.outline? h = some x.outline :=
    still.1.trans (outline?_eq_some.mpr ⟨x, hx, rfl⟩)
  obtain ⟨y, hy, same⟩ := outline?_eq_some.mp outlined
  have alive' : y.outline.isDestroyed = x.outline.isDestroyed := congrArg _ same
  exact ⟨y, find?_eq_some.mpr ⟨hy, alive'.trans alive⟩, same⟩

/-! ## The parts of a step -/

theorem story_note (w : World π) (o : Occurrence π) :
    (w.note o).story h = if o.milestone? = some h then o :: w.story h else w.story h := by
  simp only [story, history_note, List.filter_cons, decide_eq_true_eq]

theorem story_note_self {o : Occurrence π} (told : o.milestone? = some h) :
    (w.note o).story h = o :: w.story h := by
  rw [story_note, if_pos told]

theorem still_note {o : Occurrence π} (other : o.milestone? ≠ some h) : Still h w (w.note o) :=
  ⟨rfl, by rw [story_note, if_neg other]⟩

theorem still_modify_ne {f : Handler π → Handler π} (ne : g ≠ h) : Still h w (w.modify g f) := by
  simp [Still, outline?, story, ne]

theorem still_setClock (c : ClockId) (k : Clock AlarmOwner) (notices : List ClockNotice) :
    Still h w (w.setClock c k notices) := by
  refine ⟨rfl, ?_⟩
  have untold : ((notices.map (.clock c) : List (Occurrence π)).reverse.filter
      (·.milestone? = some h)) = [] := by
    simp [List.filter_eq_nil_iff, Occurrence.milestone?]
  simp only [story, setClock, List.filter_append, untold, List.nil_append]

@[simp] theorem story_modify (w : World π) (f : Handler π → Handler π) :
    (w.modify g f).story h = w.story h := rfl

@[simp] theorem story_setClock (w : World π) (c : ClockId) (k : Clock AlarmOwner)
    (notices : List ClockNotice) : (w.setClock c k notices).story h = w.story h :=
  (still_setClock c k notices).2

theorem still_setHolder (lock : Option LockId) (who : Option Caller) :
    Still h w (w.setHolder lock who) := by
  simp [Still, outline?, story]

theorem still_advance (d : Duration) : Still h w (w.advance d) := ⟨rfl, rfl⟩

/-- What has to be shown of a turn. -/
theorem turned_of {x y : Handler π} {notes : List (Occurrence π)} (hx : v.handlers[h]? = some x)
    (hy : w.handlers[h]? = some y) (turn : Handler.Turn h x.outline notes y.outline)
    (told : w.story h = notes ++ v.story h) : Turned h v w :=
  ⟨x.outline, notes, y.outline, by rw [outline?, hx]; rfl, turn, by rw [outline?, hy]; rfl, told⟩

/-- Setting how far the dispatch in progress has got is no turn. -/
theorem still_setWorker {x : Handler π} {worker worker' : Worker π} (hx : w.handlers[g]? = some x)
    (hworker : x.worker = some worker) (same : worker'.outline = worker.outline) :
    Still h w (w.setWorker g worker') := by
  by_cases hg : g = h
  · subst hg
    refine ⟨?_, rfl⟩
    simp [outline?, setWorker, hx, Handler.outline, hworker, same]
  · exact still_modify_ne hg

/-- A turn that adds nothing to the story. -/
theorem modify_evolves {x : Handler π} {f : Handler π → Handler π} (hx : w.handlers[g]? = some x)
    (turn : Handler.Turn g x.outline [] (f x).outline) : Evolves h w (w.modify g f) := by
  by_cases hg : g = h
  · subst hg
    exact .inr (turned_of hx (y := f x) (by simp [hx]) turn rfl)
  · exact .inl (still_modify_ne hg)

/-! ## Steps that no handler notices -/

/-- What has happened on a clock, the latest first. -/
def notices (w : World π) (c : ClockId) : List ClockNotice :=
  w.history.filterMap (Occurrence.notice? c)

theorem notices_note {o : Occurrence π} (other : ∀ c, o.notice? c = none) (c : ClockId) :
    (w.note o).notices c = w.notices c := by
  simp [notices, other]

/-- Nothing differs but how far scripts have got. -/
structure Calm (v w : World π) : Prop where
  now : w.now = v.now
  wallStart : w.wallStart = v.wallStart
  clocks : w.clocks = v.clocks
  locks : w.locks = v.locks
  notices : ∀ c, w.notices c = v.notices c
  still : ∀ h, Still h v w

theorem clock_congr (same : w.clocks = v.clocks) (c : ClockId) : w.clock c = v.clock c := by
  rw [clock, same, clock]

theorem Calm.clock (calm : Calm v w) (c : ClockId) : w.clock c = v.clock c :=
  clock_congr calm.clocks c

theorem Calm.refl : Calm w w := ⟨rfl, rfl, rfl, rfl, fun _ => rfl, fun _ => .refl⟩

theorem Calm.trans (first : Calm u v) (second : Calm v w) : Calm u w :=
  ⟨second.now.trans first.now, second.wallStart.trans first.wallStart,
    second.clocks.trans first.clocks, second.locks.trans first.locks,
    fun c => (second.notices c).trans (first.notices c),
    fun h => (first.still h).trans (second.still h)⟩

theorem Calm.symm (calm : Calm v w) : Calm w v :=
  ⟨calm.now.symm, calm.wallStart.symm, calm.clocks.symm, calm.locks.symm,
    fun c => (calm.notices c).symm, fun h => (calm.still h).symm⟩

theorem calm_note {o : Occurrence π} (other : o.milestone? = none)
    (offClock : ∀ c, o.notice? c = none) : Calm w (w.note o) :=
  ⟨rfl, rfl, rfl, rfl, notices_note offClock, fun h => still_note (by simp [other])⟩

theorem calm_setWorker {x : Handler π} {worker worker' : Worker π} (hx : w.handlers[g]? = some x)
    (hworker : x.worker = some worker) (same : worker'.outline = worker.outline) :
    Calm w (w.setWorker g worker') :=
  ⟨rfl, rfl, rfl, rfl, fun _ => rfl, fun _ => still_setWorker hx hworker same⟩

end World
end EventEngine
