import EventEngine.Proofs.Turns.Steps

/-!
# The alarm that a handler has registered

The start of a worker registers an alarm if a timeout is configured, and a stop forgets it. A worker
that ends by a panic leaves its alarm registered, unless a stop was pending; so does a start whose
making of a worker panics.
-/
namespace EventEngine

variable {π : Type} {h : HandlerId}

namespace Handler

/-- Only the start of a worker registers an alarm, and no one is brought back. -/
theorem Turn.registered {x x' : Handler π} {notes : List (Occurrence π)} {id : AlarmId}
    (turn : Turn h x notes x') (unstarted : notes.countP Occurrence.isLaunch = 0)
    (alive : x'.isDestroyed = false) (registered : x'.timeoutAlarm = some id) :
    x.isDestroyed = false ∧ x.timeoutAlarm = some id := by
  cases turn with
  | enqueue place body _ => cases place <;> exact ⟨alive, registered⟩
  | start id _ _ => simp [Occurrence.isLaunch] at unstarted
  | crash id _ _ => simp [Occurrence.isLaunch] at unstarted
  | refuse _ _ => cases registered
  | requestStop _ => cases registered
  | panic _ _ _ => exact ⟨isDestroyed_exit ▸ alive, timeoutAlarm_exit ▸ registered⟩
  | leave _ _ => exact ⟨isDestroyed_exit ▸ alive, timeoutAlarm_exit ▸ registered⟩
  | destroy _ =>
    have more : x.handles - 1 ≠ 0 := by simpa [isDestroyed, release] using alive
    have some : x.handles ≠ 0 := by omega
    exact ⟨by simpa [isDestroyed] using some, registered⟩
  | _ => exact ⟨alive, registered⟩

/-- The last worker ended by a panic with no stop pending, or making a worker has panicked since. -/
def Panicked (story : List (Occurrence π)) : Prop :=
  ∃ later o earlier, story = later ++ o :: earlier ∧ o.isCrash = true ∧
    ∀ o' ∈ later, o'.isStarted = false ∧ o'.isStopped = false

theorem Panicked.cons {o : Occurrence π} {story : List (Occurrence π)} (panicked : Panicked story)
    (started : o.isStarted = false) (stopped : o.isStopped = false) : Panicked (o :: story) := by
  obtain ⟨later, o', earlier, rfl, crash, quiet⟩ := panicked
  refine ⟨o :: later, o', earlier, rfl, crash, fun o' member => ?_⟩
  rcases List.mem_cons.mp member with rfl | member
  · exact ⟨started, stopped⟩
  · exact quiet o' member

/-- A worker that was asked to leave has no alarm, and one that is gone has left none, unless it
panicked. -/
structure Disarmed (x : Handler π) (story : List (Occurrence π)) : Prop where
  aborted : x.worker.isSome = true → x.queue.aborted = true → x.stopRequested = true
  requested : x.worker.isSome = true → x.stopRequested = true → x.timeoutAlarm = none
  panicked : x.worker = none → x.timeoutAlarm.isSome = true → Panicked story

theorem Turn.disarmed {x x' : Handler π} {notes story : List (Occurrence π)}
    (turn : Turn h x notes x') (disarmed : x.Disarmed story) :
    x'.Disarmed (notes ++ story) := by
  obtain ⟨aborted, requested, panicked⟩ := disarmed
  cases turn with
  | enqueue place body _ =>
    cases place <;> exact ⟨aborted, requested, fun idle armed => (panicked idle armed).cons rfl rfl⟩
  | clear _ => exact ⟨aborted, requested, fun idle armed => (panicked idle armed).cons rfl rfl⟩
  | configure setup => exact ⟨aborted, requested, panicked⟩
  | setClock c => exact ⟨aborted, requested, panicked⟩
  | beginStart => exact ⟨aborted, requested, panicked⟩
  | skipStart _ _ => exact ⟨aborted, requested, panicked⟩
  | start id _ _ => exact ⟨nofun, nofun, nofun⟩
  | refuse idle _ => exact ⟨nofun, fun _ _ => rfl, nofun⟩
  | crash id idle _ =>
    refine ⟨nofun, fun running => ?_, fun _ _ => ⟨[], _, story, rfl, rfl, by simp⟩⟩
    have absent : x.worker.isSome = true := running
    simp [idle] at absent
  | requestStop _ => exact ⟨fun _ _ => rfl, fun _ _ => rfl, nofun⟩
  | take record rest atWork _ =>
    exact ⟨nofun, fun _ => requested (by simp [atWork]), nofun⟩
  | «begin» record since atWork =>
    exact ⟨fun _ => aborted (by simp [atWork]), fun _ => requested (by simp [atWork]), nofun⟩
  | finish record since elapsed atWork =>
    exact ⟨fun _ => aborted (by simp [atWork]), fun _ => requested (by simp [atWork]), nofun⟩
  | panic record since atWork =>
    refine ⟨by simp, by simp, fun _ armed => ?_⟩
    rw [timeoutAlarm_exit] at armed
    have unrequested : x.stopRequested ≠ true := by
      intro stop
      simp [requested (by simp [atWork]) stop] at armed
    rw [exitStory, if_neg unrequested]
    exact ⟨[], .panicked h record, story, rfl, rfl, by simp⟩
  | leave atWork abort =>
    refine ⟨by simp, by simp, fun _ armed => ?_⟩
    have running : x.worker.isSome = true := by simp [atWork]
    simp [requested running (aborted running abort)] at armed
  | destroy idle => exact ⟨aborted, requested, panicked⟩

end Handler

namespace World

variable {v w : World π} {x : Handler π}

/-- A handler that has an alarm has a timeout. -/
theorem configured_of_registered (reach : Reachable w) (hx : w.handlers[h]? = some x)
    (registered : x.timeoutAlarm.isSome = true) : x.timeout.isSome = true := by
  have turns := reach.turns (h := h)
    (P := fun x _ => x.timeoutAlarm.isSome = true → x.timeout.isSome = true) ?_ ?_
  · exact turns x.outline (outline?_eq_some.mpr ⟨x, hx, rfl⟩) registered
  · intro x new registered
    obtain ⟨_, _, _, _, _, _, rfl⟩ := new
    cases registered
  · intro x notes x' story configured turn
    have armed : ∀ id, ((x.timeout.map fun _ => id).or x.timeoutAlarm).isSome = true →
        x.timeout.isSome = true := by
      intro id registered
      cases hx : x.timeout with
      | none => simpa [hx] using configured (by simpa [hx] using registered)
      | some setup => rfl
    cases turn with
    | enqueue place body _ => cases place <;> exact configured
    | configure setup => exact fun _ => rfl
    | start id _ _ => exact armed id
    | crash id _ _ => exact armed id
    | refuse _ _ => intro registered; cases registered
    | requestStop _ => intro registered; cases registered
    | panic _ _ _ => simpa using configured
    | leave _ _ => simpa using configured
    | _ => exact configured

theorem Reachable.disarmed (reach : Reachable w) (outlined : w.outline? h = some x) :
    x.Disarmed (w.story h) := by
  refine reach.turns (P := fun x story => x.Disarmed story) ?_
    (fun _ _ _ _ disarmed turn => turn.disarmed disarmed) x outlined
  rintro x ⟨_, _, _, _, _, _, rfl⟩
  exact ⟨by simp, by simp, by simp⟩

/-- A handler without a worker has no alarm unless its last worker panicked with no stop pending, or
the making of one. -/
theorem panicked_of_registered (reach : Reachable w) (hx : w.handlers[h]? = some x)
    (idle : x.worker = none) (registered : x.timeoutAlarm.isSome = true) :
    Handler.Panicked (w.story h) :=
  (reach.disarmed (outline?_eq_some.mpr ⟨x, hx, rfl⟩)).panicked (by simp [Handler.outline, idle])
    registered

/-! ## Starts of workers -/

/-- Number of workers that have been started for handler `h`. -/
def startups (w : World π) (h : HandlerId) : Nat := (w.story h).countP Occurrence.isStarted

theorem Still.startups (still : Still h v w) : w.startups h = v.startups h := by
  rw [World.startups, still.2, World.startups]

theorem Run.startups_le (run : Run v w) : v.startups h ≤ w.startups h := run.countP_story_le _

/-- Number of starts of handler `h` that came to the making of a worker. -/
def launches (w : World π) (h : HandlerId) : Nat := (w.story h).countP Occurrence.isLaunch

theorem launches_congr (told : w.story h = v.story h) : w.launches h = v.launches h := by
  rw [launches, told, launches]

theorem launches_note {o : Occurrence π} (other : o.isLaunch = false) :
    (w.note o).launches h = w.launches h := by
  rw [launches, story_note]
  split
  · rw [List.countP_cons_of_neg (by simp [other]), launches]
  · rfl

theorem Still.launches (still : Still h v w) : w.launches h = v.launches h := launches_congr still.2

theorem Evolves.launches_le (evolves : Evolves h v w) : v.launches h ≤ w.launches h := by
  rcases evolves with still | ⟨x, notes, x', -, -, -, told⟩
  · exact Nat.le_of_eq still.launches.symm
  · rw [launches, launches, told, List.countP_append]
    exact Nat.le_add_left _ _

theorem Run.launches_le (run : Run v w) : v.launches h ≤ w.launches h := run.countP_story_le _

/-- A worker is started only where a start comes to the making of one. -/
theorem Run.startups_eq (run : Run v w) (launches : w.launches h = v.launches h) :
    w.startups h = v.startups h := by
  obtain ⟨notes, told⟩ := Run.story_append (h := h) run
  have unlaunched : notes.countP Occurrence.isLaunch = 0 := by
    rw [World.launches, told, List.countP_append, World.launches] at launches
    omega
  have unstarted : notes.countP Occurrence.isStarted = 0 := by
    refine List.countP_eq_zero.mpr fun o member started => ?_
    refine List.countP_eq_zero.mp unlaunched o member ?_
    cases o <;> first | rfl | cases started
  rw [World.startups, told, List.countP_append, unstarted, Nat.zero_add, World.startups]

/-- The alarm registered by a handler that has not been destroyed. -/
def registered? (w : World π) (h : HandlerId) : Option AlarmId :=
  (w.find? h).bind Handler.timeoutAlarm

theorem registered?_eq_some {id : AlarmId} : w.registered? h = some id ↔
    ∃ x, w.find? h = some x ∧ x.timeoutAlarm = some id := by
  simp [registered?, Option.bind_eq_some_iff]

/-- A timeout of an alarm that is not registered is dropped. -/
theorem signalTimeout_unregistered {alarm : AlarmId} (deadline : Instant)
    (unregistered : w.registered? h ≠ some alarm) : w.signalTimeout h alarm deadline = w := by
  unfold signalTimeout
  split
  · rfl
  · next x found =>
    rw [if_neg fun registered =>
      unregistered (registered?_eq_some.mpr ⟨x, found, registered⟩)]

theorem Still.registered? (still : Still h v w) : w.registered? h = v.registered? h := by
  have kept : ∀ {u u' : World π}, Still h u u' → ∀ id, u.registered? h = some id →
      u'.registered? h = some id := by
    intro u u' still id registered
    obtain ⟨x, found, registered⟩ := registered?_eq_some.mp registered
    obtain ⟨y, found', same⟩ := still.find? found
    refine registered?_eq_some.mpr ⟨y, found', ?_⟩
    rw [← y.timeoutAlarm_outline, same, x.timeoutAlarm_outline, registered]
  exact Option.ext fun id => ⟨kept still.symm id, kept still id⟩

/-- Without a start of its worker a handler registers no alarm. -/
theorem Evolves.registered {id : AlarmId} (evolves : Evolves h v w)
    (launches : w.launches h = v.launches h) (registered : w.registered? h = some id) :
    v.registered? h = some id := by
  obtain ⟨y, found, registered⟩ := registered?_eq_some.mp registered
  obtain ⟨hy, alive⟩ := find?_eq_some.mp found
  have before : ∀ x, v.outline? h = some x → x.isDestroyed = false → x.timeoutAlarm = some id →
      v.registered? h = some id := by
    intro x outlined alive registered
    obtain ⟨x, hx, rfl⟩ := outline?_eq_some.mp outlined
    exact registered?_eq_some.mpr ⟨x, find?_eq_some.mpr ⟨hx, alive⟩, registered⟩
  have outlined : w.outline? h = some y.outline := outline?_eq_some.mpr ⟨y, hy, rfl⟩
  rcases evolves with ⟨same, -⟩ | ⟨x, notes, y', hx, turn, hy', told⟩
  · exact before y.outline (same ▸ outlined) alive registered
  · obtain rfl := Option.some.inj (outlined.symm.trans hy')
    have unstarted : notes.countP Occurrence.isLaunch = 0 := by
      rw [World.launches, told, List.countP_append, World.launches] at launches
      omega
    obtain ⟨alive, registered⟩ := turn.registered unstarted alive registered
    exact before x hx alive registered

end World
end EventEngine
