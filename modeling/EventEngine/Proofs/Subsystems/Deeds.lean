import EventEngine.Proofs.Operations
import EventEngine.Proofs.Subsystems.Staff
import Mathlib.Data.List.Induction

/-!
# Runs of the subsystems

A run of the subsystems is a list of deeds: what threads outside ask for, and moves of the threads,
in any order. Each deed does little to what is signalled and dispatched: a record joins a queue, or
a dispatch begins, or the peers forward a new block to the wallet, or none of these happens.
-/
namespace EventEngine
namespace Subsystems

/-- Something that happens at once in a run of the subsystems. -/
inductive Deed where
  | tellWallet (place : Place) (e : WalletEvent)
  | tellPeers (place : Place) (e : PeerEvent)
  | start (h : HandlerId)
  /-- A start goes through its first section. -/
  | beginStart (h : HandlerId)
  /-- A start goes through its second section. -/
  | endStart (h : HandlerId) (c : ClockId)
  | stop (h : HandlerId)
  | clear (h : HandlerId)
  | advance (d : Duration)
  /-- The worker of a handler moves. -/
  | worker (h : HandlerId)
  /-- A timer thread of a clock moves. -/
  | timer (c : ClockId) (generation : Nat)

def Deed.operation : Deed → Operation Payload
  | tellWallet place e => .act (walletSignal place e)
  | tellPeers place e => .act (peerSignal place e)
  | start h => .act (.start h)
  | beginStart h => .beginStart h
  | endStart h c => .endStart h c
  | stop h => .act (.stop h)
  | clear h => .act (.clear h)
  | advance d => .act (.advance d)
  | worker h => .worker h
  | timer c generation => .timer c generation

def Deed.tells : Deed → Bool
  | tellWallet _ _ | tellPeers _ _ => true
  | _ => false

/-- The subsystems after some deeds. One that cannot be done changes nothing. -/
def play (s : Subsystems) (deeds : List Deed) : Subsystems :=
  s.afterAll (deeds.map Deed.operation)

variable {s t u : Subsystems} {h g : HandlerId} {x : Handler Payload}

theorem after_worker (s : Subsystems) (h : HandlerId) :
    s.after (Deed.worker h).operation = (s.moveWorker h).getD s := by
  cases moved : s.moveWorker h <;> simp [World.after, Deed.operation, World.operate, moved]

theorem after_timer (s : Subsystems) (c : ClockId) (generation : Nat) :
    s.after (Deed.timer c generation).operation = (s.moveTimer c generation).getD s := by
  cases moved : s.moveTimer c generation <;>
    simp [World.after, Deed.operation, World.operate, moved]

theorem after_beginStart (s : Subsystems) (h : HandlerId) :
    s.after (Deed.beginStart h).operation = (s.beginStart? h).getD s := by
  cases begun : s.beginStart? h <;> simp [World.after, Deed.operation, World.operate, begun]

theorem after_endStart (s : Subsystems) (h : HandlerId) (c : ClockId) :
    s.after (Deed.endStart h c).operation = ((s.endStart? h c).map Prod.fst).getD s := by
  cases ended : s.endStart? h c <;> simp [World.after, Deed.operation, World.operate, ended]

/-! ## What a deed comes to -/

theorem resolve_wallet (e : WalletEvent) :
    (typesOf wallet).resolve e.typeName = .ok ⟨e.typeName, e.typeName⟩ := by
  cases e <;> rfl

theorem resolve_peers (e : PeerEvent) :
    (typesOf peers).resolve e.typeName = .ok ⟨e.typeName, e.typeName⟩ := by
  cases e <;> rfl

theorem perform_signal (who : Caller) (place : Place) {typeName : String} (payload : Payload)
    (script : List (Action Payload)) {registration : Registration} (found : s.find? h = some x)
    (resolved : x.types.resolve typeName = .ok registration) :
    s.perform who (.signal h place typeName payload script) =
      (s.enqueue h x place (.event registration ⟨typeName, payload, script⟩), .replied .done) := by
  simp [World.perform, World.withHandler, found, World.signal, resolved, World.replyOf]

/-- What a deed comes to, for the mail and for what the peers have to forward. -/
inductive Upshot (s t : Subsystems) : Deed → Prop where
  | nothing {d : Deed} : d.tells = false → Posts s [] t → Upshot s t d
  | wallet {place : Place} {e : WalletEvent} {record : Record Payload} :
      record.body = .event ⟨e.typeName, e.typeName⟩ ⟨e.typeName, .wallet e, []⟩ →
      Posts s [.arrived wallet place record] t → Upshot s t (.tellWallet place e)
  | peers {place : Place} {e : PeerEvent} {record : Record Payload} :
      record.body = .event ⟨e.typeName, e.typeName⟩ ⟨e.typeName, .peers e, peerScript e⟩ →
      Posts s [.arrived peers place record] t → Upshot s t (.tellPeers place e)
  | tick {c : ClockId} {generation : Nat} {setup : TimeoutSetup Payload} {e : TimeoutEvent}
      {record : Record Payload} :
      record.body = .timeout setup e →
      Posts s [.arrived wallet .head record] t → Upshot s t (.timer c generation)
  | beginWallet {record : Record Payload} : Posts s [.began wallet record] t →
      Upshot s t (.worker wallet)
  | beginPeers {record : Record Payload} : t.mail = .began peers record :: s.mail →
      s.forwards = [] → t.forwards = record.body.script → Upshot s t (.worker peers)
  | forward {n : UInt64} {record : Record Payload} :
      record.body = .event ⟨"Wallet Rescan", "Wallet Rescan"⟩
        ⟨"Wallet Rescan", .wallet (.rescan n), []⟩ →
      s.forwards = [walletSignal .head (.rescan n)] → t.forwards = [] →
      t.mail = .arrived wallet .head record :: s.mail → Upshot s t (.worker peers)

/-- A dispatch begins under the lock. -/
theorem Staffed.begins {record : Record Payload} (staffed : s.Staffed) (found : s.find? g = some x)
    (holding : x.worker = some (.holding record)) :
    let t := ((s.setHolder x.lock (some (.worker g))).setWorker g
      (.dispatching record s.now record.body.script none)).note (.began g record)
    Staffed t ∧ Upshot s t (.worker g) := by
  obtain ⟨hx, -⟩ := World.find?_eq_some.mp found
  have suits : Suits g record.body := by
    cases (staffed.proper g x hx).worker _ holding with
    | holding suits => exact suits
  have begun : Works g (.dispatching record s.now record.body.script none) :=
    .dispatching s.now suits (.inl rfl)
  intro t
  have staffed' : Staffed t := ((staffed.setHolder (by simp)).setWorker begun).tell rfl suits
  have mail : t.mail = .began g record :: s.mail :=
    (World.mail_note ..).trans (congrArg _ (World.mail_setHolder ..))
  refine ⟨staffed', ?_⟩
  rcases staffed.which hx with rfl | rfl
  · have elsewhere : forwards t = s.forwards := by
      simp [t, forwards, World.setWorker, wallet, peers]
    exact .beginWallet ⟨staffed', mail, elsewhere⟩
  · refine .beginPeers mail ?_ ?_
    · simp [forwards, hx, Handler.script, holding]
    · simp [t, forwards, World.setWorker, hx, Handler.script]

/-- The only action of any dispatch is that the peers forward a new block. -/
theorem Staffed.action_cases {record : Record Payload} {since : Instant} {action : Action Payload}
    {rest : List (Action Payload)} (staffed : s.Staffed) (hx : s.handlers[g]? = some x)
    (hworker : x.worker = some (.dispatching record since (action :: rest) none)) :
    Suits g record.body ∧ ∃ n, g = peers ∧ action = walletSignal .head (.rescan n) ∧ rest = [] := by
  obtain ⟨suits, whole⟩ : Suits g record.body ∧ record.body.script = action :: rest := by
    cases (staffed.proper g x hx).worker _ hworker with
    | dispatching _ suits whole => exact ⟨suits, by simpa [eq_comm] using whole⟩
  refine ⟨suits, ?_⟩
  obtain ⟨serial, body⟩ := record
  cases suits with
  | wallet => cases whole
  | tick _ silent => cases silent.symm.trans whole
  | peers _ _ e =>
    cases e with
    | newBlock n =>
      have only : [walletSignal .head (.rescan n)] = action :: rest := whole
      exact ⟨n, rfl, by simpa [eq_comm] using only⟩
    | connected peer => cases whole
    | disconnected peer => cases whole

/-- The peers forward a new block. -/
theorem Staffed.forwards_block {record : Record Payload} {since : Instant}
    {action : Action Payload} {rest : List (Action Payload)} (staffed : s.Staffed)
    (found : s.find? g = some x)
    (hworker : x.worker = some (.dispatching record since (action :: rest) none)) :
    Staffed (s.dispatchAction g x record since action rest) ∧
      Upshot s (s.dispatchAction g x record since action rest) (.worker g) := by
  obtain ⟨hx, -⟩ := World.find?_eq_some.mp found
  obtain ⟨suits, n, rfl, rfl, rfl⟩ := staffed.action_cases hx hworker
  -- the wallet takes the rescan, whatever it is doing
  have staffed' : Staffed (s.setWorker peers (.dispatching record since [] none)) :=
    staffed.setWorker (.dispatching since suits (.inr rfl))
  obtain ⟨y, found', proper⟩ := staffed'.find (h := wallet) (by decide)
  have resolved := (congrArg (·.resolve (WalletEvent.rescan n).typeName) proper.types).trans
    (resolve_wallet (.rescan n))
  have posts := ((Posts.refl staffed').enqueue y .head
    (.wallet ⟨"Wallet Rescan", "Wallet Rescan"⟩ "Wallet Rescan" (.rescan n))).note
    (o := .replied peers .done) rfl
  have same : s.dispatchAction peers x record since (walletSignal .head (.rescan n)) [] =
      ((s.setWorker peers (.dispatching record since [] none)).enqueue wallet y .head
        (.event ⟨"Wallet Rescan", "Wallet Rescan"⟩
          ⟨"Wallet Rescan", .wallet (.rescan n), []⟩)).note (.replied peers .done) := by
    have performed := perform_signal (.worker peers) .head (.wallet (.rescan n)) [] found' resolved
    simp only [World.dispatchAction, walletSignal, performed]
    rfl
  rw [same]
  refine ⟨posts.staffed, .forward rfl ?_ ?_ posts.mail⟩
  · simp [forwards, hx, Handler.script, hworker]
  · rw [posts.forwards, forwards_setWorker hx]
    rfl

theorem Staffed.moveWorker (staffed : s.Staffed) (moved : s.moveWorker g = some t) :
    t.Staffed ∧ Upshot s t (.worker g) := by
  have quiet : ∀ v : Subsystems, Posts s [] v → v.Staffed ∧ Upshot s v (.worker g) := fun v posts =>
    ⟨posts.staffed, .nothing rfl posts⟩
  unfold World.moveWorker at moved
  obtain ⟨x, found, moved⟩ := Option.bind_eq_some_iff.mp moved
  obtain ⟨worker, hworker, moved⟩ := Option.bind_eq_some_iff.mp moved
  have works := (staffed.proper g x (World.find?_eq_some.mp found).1).worker worker hworker
  cases works with
  | idle =>
    rcases World.wait_cases x.queue with
      ⟨-, waited⟩ | ⟨-, -, waited⟩ | ⟨record, rest, queued, waited⟩
    · simp only [waited, Option.some.injEq] at moved
      exact moved ▸ quiet _ (.leave staffed found hworker)
    · simp [waited] at moved
    · simp only [waited, Option.some.injEq] at moved
      exact moved ▸ quiet _ (.take staffed found hworker queued)
  | holding _ =>
    simp only at moved
    split at moved
    · rw [World.now_setHolder] at moved
      exact Option.some.inj moved ▸ staffed.begins found hworker
    · cases moved
  | @dispatching record script since suits rest =>
    cases script with
    | nil =>
      obtain rfl := Option.some.inj moved
      exact quiet _ (.finishDispatch staffed found hworker)
    | cons action rest =>
      obtain rfl := Option.some.inj moved
      exact staffed.forwards_block found hworker

theorem Staffed.moveTimer {c : ClockId} (staffed : s.Staffed) {generation : Nat}
    (moved : s.moveTimer c generation = some t) :
    t.Staffed ∧ Upshot s t (.timer c generation) := by
  obtain ⟨timer, -, rfl⟩ := World.moveTimer_eq_some.mp moved
  have ticks : Posts s [] (s.ticked c timer) := (Posts.refl staffed).setClock
  cases ((s.clock c).move s.now timer).2.1 with
  | none => exact ⟨ticks.staffed, .nothing rfl ticks⟩
  | some f =>
    have delivered := World.delivers (s.ticked c timer) f
    simp only [Option.map_some, Option.getD_some]
    generalize (s.ticked c timer).deliver f = t at delivered
    cases delivered with
    | ignored => exact ⟨ticks.staffed, .nothing rfl ticks⟩
    | @queued g y setup _ found _ configured =>
      obtain ⟨hy, -⟩ := World.find?_eq_some.mp found
      obtain ⟨rfl, silent⟩ := (ticks.staffed.proper g y hy).timeout setup configured
      have posts := ticks.enqueue y .head (.tick
        ⟨f.id, f.deadline, .ofDeadline f.deadline (s.ticked c timer).now s.wallStart⟩ silent)
      exact ⟨posts.staffed, .tick rfl posts⟩

/-- Whatever is done, each handler has got records of its own only, and the mail grows by what the
deed says. -/
theorem Staffed.after (staffed : s.Staffed) (d : Deed) :
    Staffed (s.after d.operation) ∧ Upshot s (s.after d.operation) d := by
  have quiet : ∀ (d : Deed) (t : Subsystems), d.tells = false → Posts s [] t →
      t.Staffed ∧ Upshot s t d :=
    fun d t unsaid posts => ⟨posts.staffed, .nothing unsaid posts⟩
  have handled : ∀ (g : HandlerId) (f : Handler Payload → World Payload × Progress),
      (∀ x, s.find? g = some x → Posts s [] (f x).1) → Posts s [] (s.withHandler g f).1 := by
    intro g f posts
    unfold World.withHandler
    split
    · next x found => exact posts x found
    · exact .refl staffed
  cases d with
  | tellWallet place e =>
    obtain ⟨x, found, proper⟩ := staffed.find (h := wallet) (by decide)
    have resolved := (congrArg (·.resolve e.typeName) proper.types).trans (resolve_wallet e)
    have posts := (Posts.refl staffed).enqueue x place
      (.wallet ⟨e.typeName, e.typeName⟩ e.typeName e)
    have same : s.after (Deed.tellWallet place e).operation = s.enqueue wallet x place
        (.event ⟨e.typeName, e.typeName⟩ ⟨e.typeName, .wallet e, []⟩) :=
      congrArg Prod.fst (perform_signal _ _ _ _ found resolved)
    rw [same]
    exact ⟨posts.staffed, .wallet rfl posts⟩
  | tellPeers place e =>
    obtain ⟨x, found, proper⟩ := staffed.find (h := peers) (by decide)
    have resolved := (congrArg (·.resolve e.typeName) proper.types).trans (resolve_peers e)
    have posts := (Posts.refl staffed).enqueue x place
      (.peers ⟨e.typeName, e.typeName⟩ e.typeName e)
    have same : s.after (Deed.tellPeers place e).operation = s.enqueue peers x place
        (.event ⟨e.typeName, e.typeName⟩ ⟨e.typeName, .peers e, peerScript e⟩) :=
      congrArg Prod.fst (perform_signal _ _ _ _ found resolved)
    rw [same]
    exact ⟨posts.staffed, .peers rfl posts⟩
  | start g =>
    exact quiet _ _ rfl (handled g (fun x => (s.start g x).map id (.replied ∘ World.startReply))
      fun x found => .start staffed found)
  | beginStart g =>
    rw [after_beginStart]
    cases begun : s.beginStart? g with
    | none => exact quiet _ _ rfl (.refl staffed)
    | some t => exact quiet _ _ rfl (.beginStart staffed begun)
  | endStart g c =>
    rw [after_endStart]
    cases ended : s.endStart? g c with
    | none => exact quiet _ _ rfl (.refl staffed)
    | some result => exact quiet _ _ rfl (.endStart staffed ended)
  | stop g =>
    refine quiet _ _ rfl (handled g _ fun x _ => ?_)
    have requested := Posts.requestStop (g := g) (x := x) staffed .outside false
    split <;> next answered => rw [answered] at requested; exact requested
  | clear g =>
    exact quiet _ _ rfl (handled g (fun x => (s.clear g x, .replied (.count x.pending)))
      fun x _ => .clear staffed)
  | advance d =>
    have staffed' : Staffed (s.advance d) :=
      ⟨staffed.two, staffed.inside, staffed.proper, staffed.mail⟩
    exact quiet _ _ rfl ⟨staffed', rfl, rfl⟩
  | worker g =>
    rw [after_worker]
    cases moved : s.moveWorker g with
    | none => exact quiet _ _ rfl (.refl staffed)
    | some t => exact staffed.moveWorker moved
  | timer c generation =>
    rw [after_timer]
    cases moved : s.moveTimer c generation with
    | none => exact quiet _ _ rfl (.refl staffed)
    | some t => exact staffed.moveTimer moved

/-- Only a stop of a handler asks it to stop, and only a clear discards what is queued on it before
it is asked to stop. -/
theorem Staffed.spares {d : Deed} (staffed : s.Staffed) (unstopped : d ≠ .stop h)
    (uncleared : d ≠ .clear h) : World.Spares h s (s.after d.operation) := by
  cases d with
  | tellWallet place e => exact World.perform_spares .outside nofun nofun nofun
  | tellPeers place e => exact World.perform_spares .outside nofun nofun nofun
  | start g => exact World.perform_spares .outside nofun nofun nofun
  | stop g =>
    have other : Action.stop (π := Payload) g ≠ .stop h := fun same =>
      unstopped (congrArg Deed.stop (Action.stop.inj same))
    exact World.perform_spares .outside other nofun nofun
  | clear g =>
    have other : Action.clear (π := Payload) g ≠ .clear h := fun same =>
      uncleared (congrArg Deed.clear (Action.clear.inj same))
    exact World.perform_spares .outside nofun nofun other
  | advance d => exact World.perform_spares .outside nofun nofun nofun
  | worker g =>
    rw [after_worker]
    cases moved : s.moveWorker g with
    | none => exact World.Spares.refl
    | some t =>
      rcases World.moveWorker_cases moved with
        spares | ⟨x, record, since, action, rest, found, hworker, rfl⟩
      · exact spares h
      · obtain ⟨-, n, rfl, rfl, rfl⟩ :=
          staffed.action_cases (World.find?_eq_some.mp found).1 hworker
        exact World.spares_dispatchAction found hworker nofun nofun nofun
  | beginStart g =>
    rw [after_beginStart]
    cases begun : s.beginStart? g with
    | none => exact World.Spares.refl
    | some t => exact World.spares_beginStart? begun
  | endStart g c =>
    rw [after_endStart]
    cases ended : s.endStart? g c with
    | none => exact World.Spares.refl
    | some result => exact World.spares_endStart? ended
  | timer c generation =>
    rw [after_timer]
    cases moved : s.moveTimer c generation with
    | none => exact World.Spares.refl
    | some t => exact World.spares_moveTimer moved

/-! ## From the beginning -/

variable {config : EventsConfig} {clock : ClockConfig} {tick : Duration} {canSpawn : Nat → Bool}
  {deeds : List Deed}

theorem create_eq (config : EventsConfig) (clock : ClockConfig) (tick : Duration)
    (canSpawn : Nat → Bool) :
    create config clock tick canSpawn = {
      clocks := [{ config := clock, canSpawn }]
      locks := [none]
      handlers := [
        { handler config walletName WalletEvent.typeNames canSpawn with
          timeout := some ⟨tick, .tick, []⟩ },
        handler config peersName PeerEvent.typeNames canSpawn]
      history := [.timeoutConfigured wallet tick] } := rfl

theorem create_reachable : World.Reachable (create config clock tick canSpawn) := by
  have fresh : World.Fresh ({
      clocks := [{ config := clock, canSpawn }]
      locks := [none]
      handlers := [handler config walletName WalletEvent.typeNames canSpawn,
        handler config peersName PeerEvent.typeNames canSpawn] } : Subsystems) := by
    refine ⟨Nat.zero_le _, ?_, by simp, ?_, rfl⟩
    · intro k member
      obtain rfl := List.mem_singleton.mp member
      exact ⟨_, _, rfl⟩
    · intro x member
      simp only [List.mem_cons, List.not_mem_nil, or_false] at member
      rcases member with rfl | rfl <;> exact ⟨_, _, _, _, _, _, rfl⟩
  exact fresh.reachable.next (.act _ _)

theorem create_staffed : Staffed (create config clock tick canSpawn) := by
  rw [create_eq]
  refine ⟨rfl, by simp, fun h x hx => ?_, nofun⟩
  rcases h with _ | _ | h
  · cases hx
    refine ⟨rfl, rfl, rfl, fun setup configured => ?_, nofun, nofun⟩
    cases configured
    exact ⟨rfl, rfl⟩
  · cases hx
    exact ⟨rfl, rfl, rfl, nofun, nofun, nofun⟩
  · cases hx

theorem play_concat (s : Subsystems) (deeds : List Deed) (d : Deed) :
    s.play (deeds ++ [d]) = (s.play deeds).after d.operation := by
  simp only [play, List.map_append, List.map_cons, List.map_nil, World.afterAll_concat]

theorem play_append (s : Subsystems) (deeds more : List Deed) :
    s.play (deeds ++ more) = (s.play deeds).play more := by
  simp [play, World.afterAll]

theorem play_run (s : Subsystems) (deeds : List Deed) : World.Run s (s.play deeds) :=
  World.afterAll_run s _

theorem Staffed.play (staffed : s.Staffed) (deeds : List Deed) : (s.play deeds).Staffed := by
  induction deeds using List.reverseRecOn with
  | nil => exact staffed
  | append_singleton deeds d ih =>
    rw [play_concat]
    exact (ih.after d).1

theorem play_reachable : World.Reachable ((create config clock tick canSpawn).play deeds) :=
  create_reachable.run (play_run _ deeds)

theorem play_staffed : Staffed ((create config clock tick canSpawn).play deeds) :=
  create_staffed.play deeds

theorem lock_there : lock < ((create config clock tick canSpawn).play deeds).locks.length := by
  rw [World.Run.length_locks (play_run _ deeds)]
  exact Nat.zero_lt_one

/-! ## Where no thread can move -/

theorem moveWorker_eq_none (still : s.move? = none) (there : h < s.handlers.length) :
    s.moveWorker h = none := by
  obtain ⟨-, workers⟩ := Option.or_eq_none_iff.mp still
  exact List.findSome?_eq_none_iff.mp workers h (List.mem_range.mpr there)

/-- A dispatch can always go on. -/
theorem Staffed.dispatch_moves (staffed : s.Staffed) (hx : s.handlers[h]? = some x)
    (busy : x.current.isSome = true) : s.moveWorker h ≠ none := by
  have proper := staffed.proper h x hx
  have found := World.find?_eq_some.mpr ⟨hx, proper.alive⟩
  unfold Handler.current at busy
  split at busy
  · next record since script pause hworker =>
    cases proper.worker _ hworker with
    | dispatching _ _ _ => cases script <;> simp [World.moveWorker, found, hworker]
  · cases busy

/-- Where no thread can move, every worker waits for a record. -/
theorem Staffed.at_rest (staffed : s.Staffed) (reach : World.Reachable s)
    (there : lock < s.locks.length) (still : s.move? = none) (hx : s.handlers[h]? = some x)
    (running : x.isRunning = true) :
    x.worker = some .idle ∧ x.queue.events = [] ∧ x.queue.aborted = false := by
  have unmoved : ∀ {g y}, s.handlers[g]? = some y → s.moveWorker g = none := fun hy =>
    moveWorker_eq_none still (List.getElem?_eq_some_iff.mp hy).1
  have stays := unmoved hx
  have proper := staffed.proper h x hx
  have found := World.find?_eq_some.mpr ⟨hx, proper.alive⟩
  obtain ⟨worker, hworker⟩ := Option.isSome_iff_exists.mp running
  cases proper.worker worker hworker with
  | idle =>
    rcases World.wait_cases x.queue with
      ⟨-, waited⟩ | ⟨heard, empty, -⟩ | ⟨record, rest, -, waited⟩
    · simp [World.moveWorker, found, hworker, waited] at stays
    · exact ⟨hworker, empty, heard⟩
    · simp [World.moveWorker, found, hworker, waited] at stays
  | dispatching _ _ _ =>
    exact absurd stays (staffed.dispatch_moves hx (by simp [Handler.current, hworker]))
  | holding _ =>
    -- the lock is not free, so there is a dispatch that can go on
    have taken : s.canDispatch x.lock = false := by
      by_contra free
      simp [World.moveWorker, found, hworker, free] at stays
    rw [proper.lock] at taken
    obtain ⟨who, held⟩ : ∃ who, s.holder lock = some who := by
      simpa [World.canDispatch, ← Option.isSome_iff_exists, Option.isNone_eq_false_iff] using taken
    cases who with
    | outside =>
      have member := List.getElem?_eq_getElem there
      rw [World.holder, List.getD_eq_getElem?_getD, member, Option.getD_some] at held
      exact absurd held (staffed.inside _ (List.getElem_mem there))
    | worker g =>
      obtain ⟨y, hy, busy⟩ := Option.bind_eq_some_iff.mp ((reach.guarded lock there g).mp held)
      obtain ⟨z, hz, rfl⟩ := World.outline?_eq_some.mp hy
      rw [Handler.guard?_outline, Handler.guard?_eq_some] at busy
      exact absurd (unmoved hz) (staffed.dispatch_moves hz busy.2)

end Subsystems
end EventEngine
