import EventEngine.Proofs.LockExclusion
import EventEngine.Proofs.Operations
import EventEngine.Proofs.Subsystems.Mail
import EventEngine.Proofs.Turns.Requests
import EventEngine.Subsystems.Basic

/-!
# The staff of the subsystems

The wallet gets its own events and its ticks, which do nothing but change its ledger, and the peers
get theirs, of which a new block does one thing more: it is forwarded to the wallet as a rescan. So
no dispatch stands still, and nothing that a dispatcher does can fail. This is so whatever record
joins a queue, and everything else leaves the records and what is to be forwarded as they are.
-/
namespace EventEngine

variable {π : Type}

def Handler.script (x : Handler π) : List (Action π) :=
  match x.worker with
  | some (.dispatching _ _ script _) => script
  | _ => []

namespace Subsystems

variable {s t u : Subsystems} {h g : HandlerId} {x : Handler Payload}

/-! ## Who has which records -/

/-- What may be queued on which handler: the wallet dispatches its events and its ticks, and the
dispatchers of neither do anything more; the peers dispatch events of theirs. -/
inductive Suits : HandlerId → RecordBody Payload → Prop where
  | wallet (registration : Registration) (typeName : String) (e : WalletEvent) :
      Suits wallet (.event registration ⟨typeName, .wallet e, []⟩)
  | tick {setup : TimeoutSetup Payload} (e : TimeoutEvent) : setup.script = [] →
      Suits wallet (.timeout setup e)
  | peers (registration : Registration) (typeName : String) (e : PeerEvent) :
      Suits peers (.event registration ⟨typeName, .peers e, peerScript e⟩)

/-- Nothing may fail, and records come to the handlers that they suit. -/
def Fits : Mail Payload → Prop
  | .arrived h _ record | .began h record => Suits h record.body
  | .failed _ => False

/-- What a worker may be at. Dispatches never stand still. -/
inductive Works (h : HandlerId) : Worker Payload → Prop where
  | idle : Works h .idle
  | holding {record : Record Payload} : Suits h record.body → Works h (.holding record)
  | dispatching {record : Record Payload} {script : List (Action Payload)} (since : Instant) :
      Suits h record.body → script = record.body.script ∨ script = [] →
      Works h (.dispatching record since script none)

def typesOf (h : HandlerId) : EventTypes :=
  .ofList ((if h = wallet then WalletEvent.typeNames else PeerEvent.typeNames).map fun t => ⟨t, t⟩)

/-- What never changes of a handler, and what it may have to do. -/
structure Proper (h : HandlerId) (x : Handler Payload) : Prop where
  types : x.types = typesOf h
  lock : x.lock = some lock
  alive : x.isDestroyed = false
  timeout : ∀ setup, x.timeout = some setup → h = wallet ∧ setup.script = []
  queued : ∀ record ∈ x.queue.events, Suits h record.body
  worker : ∀ worker, x.worker = some worker → Works h worker

/-- There are the two handlers, each has got records of its own only, and no thread outside holds a
lock. -/
structure Staffed (s : Subsystems) : Prop where
  two : s.handlers.length = 2
  inside : ∀ who ∈ s.locks, who ≠ some .outside
  proper : ∀ h x, s.handlers[h]? = some x → Proper h x
  mail : ∀ m ∈ s.mail, Fits m

/-- What the peers have still to forward. -/
def forwards (s : Subsystems) : List (Action Payload) :=
  ((s.handlers[peers]?).map Handler.script).getD []

theorem Proper.congr {y : Handler Payload} (proper : Proper h x) (types : y.types = x.types)
    (lock : y.lock = x.lock) (alive : y.isDestroyed = x.isDestroyed)
    (timeout : y.timeout = x.timeout) (queue : y.queue.events = x.queue.events)
    (worker : y.worker = x.worker) : Proper h y :=
  ⟨types.trans proper.types, lock.trans proper.lock, alive.trans proper.alive,
    timeout ▸ proper.timeout, queue ▸ proper.queued, worker ▸ proper.worker⟩

theorem Proper.enqueue {place : Place} {body : RecordBody Payload} (proper : Proper h x)
    (suits : Suits h body) : Proper h (x.enqueue place body) := by
  have queued : ∀ record ∈ (x.enqueue place body).queue.events, Suits h record.body := by
    intro record member
    have member' : record ∈ x.queue.events ∨ record = x.nextRecord body := by
      cases place <;> simpa [Handler.enqueue, or_comm] using member
    rcases member' with member | rfl
    · exact proper.queued record member
    · exact suits
  cases place <;>
    exact ⟨proper.types, proper.lock, proper.alive, proper.timeout, queued, proper.worker⟩

theorem Proper.exit (proper : Proper h x) : Proper h x.exit := by
  have idle : ∀ worker, x.exit.worker = some worker → Works h worker := by simp
  unfold Handler.exit at idle ⊢
  split
  · exact ⟨proper.types, proper.lock, proper.alive, proper.timeout, nofun, nofun⟩
  · exact ⟨proper.types, proper.lock, proper.alive, proper.timeout, proper.queued, nofun⟩

theorem Staffed.modify {f : Handler Payload → Handler Payload} (staffed : s.Staffed)
    (keeps : ∀ x, s.handlers[g]? = some x → Proper g x → Proper g (f x)) :
    Staffed (s.modify g f) := by
  obtain ⟨two, inside, proper, suits⟩ := staffed
  refine ⟨by simpa [World.modify] using two, inside, fun h x hx => ?_, suits⟩
  rw [World.handlers_modify] at hx
  split at hx
  · next same =>
    subst same
    obtain ⟨y, hy, rfl⟩ := Option.map_eq_some_iff.mp hx
    exact keeps y hy (proper g y hy)
  · exact proper h x hx

theorem Staffed.setHolder {lock : Option LockId} {who : Option Caller} (staffed : s.Staffed)
    (mine : who ≠ some .outside) : Staffed (s.setHolder lock who) := by
  obtain ⟨two, inside, proper, suits⟩ := staffed
  refine ⟨by simpa using two, ?_, by simpa using proper, by rwa [World.mail_setHolder]⟩
  cases lock with
  | none => exact inside
  | some l =>
    intro other member
    rcases List.mem_or_eq_of_mem_set member with member | rfl
    · exact inside other member
    · exact mine

theorem Staffed.tell {o : Occurrence Payload} {m : Mail Payload} (staffed : s.Staffed)
    (told : o.mail? = some m) (fits : Fits m) : Staffed (s.note o) := by
  refine ⟨staffed.two, staffed.inside, staffed.proper, ?_⟩
  simpa [World.mail_note, told, fits] using staffed.mail

theorem Staffed.setWorker {worker : Worker Payload} (staffed : s.Staffed)
    (works : Works g worker) : Staffed (s.setWorker g worker) := by
  refine staffed.modify fun y _ proper =>
    ⟨proper.types, proper.lock, proper.alive, proper.timeout, proper.queued, ?_⟩
  intro worker made
  cases made
  exact works

theorem forwards_setWorker {worker : Worker Payload} (hx : s.handlers[peers]? = some x) :
    forwards (s.setWorker peers worker) = ({ x with worker := some worker }).script := by
  simp [forwards, World.setWorker, hx]

/-- The mail grows by this, and neither the staff nor what is to be forwarded changes. -/
structure Posts (s : Subsystems) (news : List (Mail Payload)) (t : Subsystems) : Prop where
  staffed : t.Staffed
  mail : t.mail = news ++ s.mail
  forwards : t.forwards = s.forwards

namespace Posts

variable {news : List (Mail Payload)}

theorem refl (staffed : s.Staffed) : Posts s [] s := ⟨staffed, rfl, rfl⟩

theorem note {o : Occurrence Payload} (posts : Posts s news t) (silent : o.mail? = none) :
    Posts s news (t.note o) := by
  have same : (t.note o).mail = t.mail := by simp [World.mail_note, silent]
  obtain ⟨⟨two, inside, proper, suits⟩, mail, forwards⟩ := posts
  exact ⟨⟨two, inside, proper, same ▸ suits⟩, same.trans mail, forwards⟩

theorem modify {f : Handler Payload → Handler Payload} (posts : Posts s news t)
    (keeps : ∀ x, t.handlers[g]? = some x → Proper g x → Proper g (f x) ∧ (f x).script = x.script) :
    Posts s news (t.modify g f) := by
  refine ⟨posts.staffed.modify fun x hx proper => (keeps x hx proper).1, posts.mail, ?_⟩
  rw [← posts.forwards]
  simp only [Subsystems.forwards, World.handlers_modify]
  by_cases same : g = peers
  · subst same
    cases hy : t.handlers[peers]? with
    | none => rfl
    | some y => simp [(keeps y hy (posts.staffed.proper peers y hy)).2]
  · rw [if_neg same]

theorem setClock {c : ClockId} {k : Clock AlarmOwner} {notices : List ClockNotice}
    (posts : Posts s news t) : Posts s news (t.setClock c k notices) := by
  have same : (t.setClock c k notices).mail = t.mail := World.mail_setClock ..
  obtain ⟨⟨two, inside, proper, suits⟩, mail, forwards⟩ := posts
  exact ⟨⟨two, inside, proper, same ▸ suits⟩, same.trans mail, forwards⟩

theorem setHolder {lock : Option LockId} {who : Option Caller} (posts : Posts s news t)
    (mine : who ≠ some .outside) : Posts s news (t.setHolder lock who) := by
  refine ⟨posts.staffed.setHolder mine, ?_, ?_⟩
  · rw [World.mail_setHolder, posts.mail]
  · simpa [Subsystems.forwards] using posts.forwards

theorem armTimeout {c : ClockId} (posts : Posts s news t) :
    Posts s news (t.armTimeout g x c) := by
  unfold World.armTimeout
  split
  · exact posts
  · exact posts.setClock.modify fun y _ proper => ⟨proper.congr rfl rfl rfl rfl rfl rfl, rfl⟩

theorem disarmTimeout {c : Option ClockId} (posts : Posts s news t) :
    Posts s news (t.disarmTimeout g x c) := by
  have disarmed : Posts s news (t.modify g ({ · with timeoutAlarm := none })) :=
    posts.modify fun y _ proper => ⟨proper.congr rfl rfl rfl rfl rfl rfl, rfl⟩
  unfold World.disarmTimeout
  split
  · exact posts
  · split
    · exact disarmed
    · exact disarmed.setClock

theorem tell {o : Occurrence Payload} {m : Mail Payload} (posts : Posts s news t)
    (told : o.mail? = some m) (fits : Fits m) : Posts s (m :: news) (t.note o) := by
  refine ⟨posts.staffed.tell told fits, ?_, posts.forwards⟩
  simp [World.mail_note, told, posts.mail]

theorem enqueue {body : RecordBody Payload} (posts : Posts s news t) (x : Handler Payload)
    (place : Place) (suits : Suits g body) : Posts s (.arrived g place (x.nextRecord body) :: news)
      (t.enqueue g x place body) := by
  refine (posts.modify fun y _ proper => ⟨proper.enqueue suits, ?_⟩).tell rfl suits
  cases place <;> rfl

/-- The second section of a start tells nothing. -/
theorem installs {c : ClockId} (posts : Posts s news t) (found : t.find? g = some x)
    (installs : World.Installs t g x c u) : Posts s news u := by
  obtain ⟨hx, -⟩ := World.find?_eq_some.mp found
  have arms : Posts s news (t.armed g x c) :=
    (posts.modify (f := Handler.prepare) fun y _ proper =>
      ⟨proper.congr rfl rfl rfl rfl rfl rfl, rfl⟩).armTimeout
  cases installs with
  | running _ => exact posts
  | launched idle _ =>
    refine (arms.modify fun y hy proper => ?_).note rfl
    rw [World.handlers_armed hx, Option.some.injEq] at hy
    subst hy
    refine ⟨⟨proper.types, proper.lock, proper.alive, proper.timeout, proper.queued, ?_⟩, ?_⟩
    · intro worker made
      cases made
      exact .idle
    · have none : (x.armedWith (t.clock c).nextId).worker = none := idle
      simp [Handler.script, Handler.launch, none]
  | refused _ _ => exact arms.disarmTimeout.note rfl
  | crashed _ _ => exact arms.note rfl

theorem start (staffed : s.Staffed) (found : s.find? g = some x) : Posts s [] (s.start g x).1 := by
  have adopts : Posts s [] (s.adopted g) :=
    (refl staffed).modify fun y _ proper => ⟨proper.congr rfl rfl rfl rfl rfl rfl, rfl⟩
  have started := World.starts found
  generalize (s.start g x).1 = t at started
  cases started with
  | failed _ => exact adopts
  | opened _ installs => exact adopts.setClock.installs (World.find?_adopted found) installs

/-- Neither section of a start tells anything, where another deed comes between them. -/
theorem beginStart (staffed : s.Staffed) (begun : s.beginStart? g = some t) : Posts s [] t := by
  obtain ⟨x, c, k, notices, found, rfl, -, rfl⟩ := World.beginStart?_eq_some.mp begun
  have adopts : Posts s [] (s.adopted g) :=
    (refl staffed).modify fun y _ proper => ⟨proper.congr rfl rfl rfl rfl rfl rfl, rfl⟩
  exact adopts.setClock.modify fun y _ proper => ⟨proper.congr rfl rfl rfl rfl rfl rfl, rfl⟩

theorem endStart {c : ClockId} {result : Subsystems × Reply} (staffed : s.Staffed)
    (ended : s.endStart? g c = some result) : Posts s [] result.1 := by
  obtain ⟨x, found, -, ended⟩ := World.endStart?_eq_some.mp ended
  have enters : Posts s [] (s.modify g (·.entered c)) :=
    (refl staffed).modify fun y _ proper => ⟨proper.congr rfl rfl rfl rfl rfl rfl, rfl⟩
  have entered := World.find?_entered found c
  rw [ended]
  exact enters.installs entered (World.installs entered c)

theorem requestStop (staffed : s.Staffed) (who : Caller) (destroys : Bool) :
    Posts s [] (s.requestStop who g x destroys).1 := by
  have requested : Posts s []
      (((s.disarmTimeout g x x.clock).modify g Handler.requestStop).note (.abortRequested g)) :=
    ((refl staffed).disarmTimeout.modify (f := Handler.requestStop) fun y _ proper =>
      ⟨proper.congr rfl rfl rfl rfl rfl rfl, rfl⟩).note rfl
  unfold World.requestStop
  split
  · split
    · exact requested.note rfl
    · exact requested
  · exact refl staffed

theorem clear (staffed : s.Staffed) : Posts s [] (s.clear g x) := by
  unfold World.clear
  split
  · exact refl staffed
  · refine Posts.note ((refl staffed).modify (f := Handler.clear) fun y _ proper => ⟨?_, rfl⟩) rfl
    exact ⟨proper.types, proper.lock, proper.alive, proper.timeout, nofun, proper.worker⟩

theorem leave (staffed : s.Staffed) (found : s.find? g = some x) (idle : x.worker = some .idle) :
    Posts s [] (s.leave g x) := by
  obtain ⟨hx, -⟩ := World.find?_eq_some.mp found
  have left : Posts s [] (s.modify g Handler.exit) := by
    refine (refl staffed).modify fun y hy proper => ⟨proper.exit, ?_⟩
    obtain rfl := Option.some.inj (hx.symm.trans hy)
    simp [Handler.script, idle]
  unfold World.leave
  split
  · split
    · exact left.note rfl
    · exact (left.note rfl).note rfl
  · exact left

theorem finishDispatch {record : Record Payload} {since : Instant} (staffed : s.Staffed)
    (found : s.find? g = some x) (hworker : x.worker = some (.dispatching record since [] none)) :
    Posts s [] (s.finishDispatch g x record since) := by
  obtain ⟨hx, -⟩ := World.find?_eq_some.mp found
  refine (((refl staffed).modify fun y hy proper => ⟨?_, ?_⟩).setHolder (by simp)).note rfl
  · refine ⟨proper.types, proper.lock, proper.alive, proper.timeout, proper.queued, ?_⟩
    intro worker made
    cases made
    exact .idle
  · obtain rfl := Option.some.inj (hx.symm.trans hy)
    simp [Handler.script, hworker]

theorem take {record : Record Payload} {rest : List (Record Payload)} (staffed : s.Staffed)
    (found : s.find? g = some x) (idle : x.worker = some .idle)
    (queued : x.queue = { events := record :: rest, aborted := false }) :
    Posts s [] (s.modify g
      ({ · with queue := { events := rest }, worker := some (.holding record) })) := by
  obtain ⟨hx, -⟩ := World.find?_eq_some.mp found
  refine (refl staffed).modify fun y hy proper => ?_
  obtain rfl := Option.some.inj (hx.symm.trans hy)
  have suits := proper.queued
  rw [queued] at suits
  obtain ⟨suits, others⟩ := List.forall_mem_cons.mp suits
  refine ⟨⟨proper.types, proper.lock, proper.alive, proper.timeout, others, ?_⟩, ?_⟩
  · intro worker made
    cases made
    exact .holding suits
  · simp [Handler.script, idle]

end Posts

/-! ## What the mail tells -/

variable {β : Type} {read? : Record Payload → Option β}

/-- What only records for one handler have to say is read off what joins its queue. -/
theorem Staffed.arriving (staffed : s.Staffed)
    (own : ∀ g record, Suits g record.body → g ≠ h → read? record = none) :
    s.arrivals read? = (Occurrence.accepted (s.story h)).filterMap read? := by
  rw [World.arrivals, World.accepted_story, List.filterMap_filterMap]
  refine List.filterMap_congr fun m member => ?_
  have fits := staffed.mail m (List.mem_reverse.mp member)
  cases m with
  | arrived g place record =>
    by_cases mine : g = h
    · simp [Mail.arriving?, Mail.accepted?, mine]
    · simp [Mail.arriving?, Mail.accepted?, mine, own g record fits mine]
  | _ => rfl

/-- And off what it dispatches. -/
theorem Staffed.beginning (staffed : s.Staffed)
    (own : ∀ g record, Suits g record.body → g ≠ h → read? record = none) :
    s.beginnings read? = (Occurrence.dispatched (s.story h)).filterMap read? := by
  rw [World.beginnings, World.dispatched_story, List.filterMap_filterMap]
  refine List.filterMap_congr fun m member => ?_
  have fits := staffed.mail m (List.mem_reverse.mp member)
  cases m with
  | began g record =>
    by_cases mine : g = h
    · simp [Mail.beginning?, Mail.dispatched?, mine]
    · simp [Mail.beginning?, Mail.dispatched?, mine, own g record fits mine]
  | _ => rfl

theorem observeWallet_other (o : Occurrence Payload) (l : Ledger)
    (other : ∀ h record, o ≠ .began h record) : observeWallet o l = l := by
  cases o with
  | began h record => exact absurd rfl (other h record)
  | _ => rfl

theorem observePeers_other (o : Occurrence Payload) (r : Roster)
    (other : ∀ h record, o ≠ .began h record) : observePeers o r = r := by
  cases o with
  | began h record => exact absurd rfl (other h record)
  | _ => rfl

/-- No event is refused, every action of a dispatcher succeeds, and no dispatcher panics. -/
theorem Staffed.unfailing (staffed : s.Staffed) {o : Occurrence Payload} (member : o ∈ s.history) :
    (∀ h error, o ≠ .refused h error) ∧ (∀ h reply, o = .replied h reply → reply = .done) ∧
      ∀ h record, o ≠ .panicked h record := by
  have fits : ∀ m, o.mail? = some m → Fits m := fun m told =>
    staffed.mail m (List.mem_filterMap.mpr ⟨o, member, told⟩)
  refine ⟨?_, ?_, ?_⟩
  · rintro h error rfl
    exact fits _ rfl
  · rintro h reply rfl
    cases reply with
    | done => rfl
    | _ => exact (fits _ rfl).elim
  · rintro h record rfl
    exact fits _ rfl

theorem Staffed.find (staffed : s.Staffed) (there : h < 2) :
    ∃ x, s.find? h = some x ∧ Proper h x := by
  have there' : h < s.handlers.length := staffed.two.symm ▸ there
  have hx := List.getElem?_eq_getElem there'
  have proper := staffed.proper h _ hx
  exact ⟨_, World.find?_eq_some.mpr ⟨hx, proper.alive⟩, proper⟩

theorem Staffed.which (staffed : s.Staffed) (hx : s.handlers[h]? = some x) :
    h = wallet ∨ h = peers := by
  have there : h < s.handlers.length := (List.getElem?_eq_some_iff.mp hx).1
  rw [staffed.two] at there
  rcases h with _ | _ | h
  · exact .inl rfl
  · exact .inr rfl
  · exact absurd there (Nat.not_lt.mpr (Nat.le_add_left 2 h))

end Subsystems
end EventEngine
