import EventEngine.Proofs.AfterStop
import EventEngine.Proofs.Exits
import EventEngine.Proofs.Subsystems.Sessions

/-!
# Blocks and rescans

The roster is what the events of the peers make of it, in the order of their dispatches. Every block
that the peers dispatch they forward as a rescan, which the wallet takes whatever it is doing. So
the rescans that have reached the wallet, with the one still to be forwarded, are the dispatched
blocks in the same order, and they are dispatched by the wallet, or queued, or in its worker's hand,
or discarded. Once the peers and then the wallet have been stopped, none is left.
-/
namespace EventEngine

open Occurrence

def Reply.isDone : Reply → Bool
  | done => true
  | _ => false

theorem Reply.eq_done {reply : Reply} (succeeds : reply.isDone = true) : reply = .done := by
  cases reply <;> first | rfl | cases succeeds

def PeerEvent.height? : PeerEvent → Option UInt64
  | newBlock height => some height
  | _ => none

/-- Whether this peer is connected from the event on, if the event is about that. -/
def PeerEvent.presence? (peer : UInt32) : PeerEvent → Option Bool
  | connected other => if other = peer then some true else none
  | disconnected other => if other = peer then some false else none
  | newBlock _ => none

namespace Roster

theorem height_foldl (events : List PeerEvent) (r : Roster) :
    (events.foldl process r).height = (events.filterMap PeerEvent.height?).foldl max r.height := by
  induction events generalizing r with
  | nil => rfl
  | cons e rest ih => cases e <;> exact ih _

/-- A peer is connected if the last event about its connection says so. -/
theorem mem_connected_iff (events : List PeerEvent) (peer : UInt32) :
    peer ∈ (events.foldl process {}).connected ↔
      (events.filterMap (PeerEvent.presence? peer)).getLast? = some true := by
  induction events using List.reverseRecOn with
  | nil => simp
  | append_singleton events e ih =>
    rw [List.foldl_append, List.filterMap_append]
    cases e with
    | connected other =>
      by_cases same : other = peer
      · simp [process, PeerEvent.presence?, same]
      · simp [process, PeerEvent.presence?, same, ih, Ne.symm same]
    | disconnected other =>
      by_cases same : other = peer
      · simp [process, PeerEvent.presence?, same]
      · simp [process, PeerEvent.presence?, same, ih, Ne.symm same]
    | newBlock height => simpa [process, PeerEvent.presence?] using ih

end Roster

def Record.peerEvent? (record : Record Payload) : Option PeerEvent :=
  match record.body with
  | .event _ ⟨_, .peers e, _⟩ => some e
  | _ => none

/-- The height of the block that a record announces. -/
def Record.block? (record : Record Payload) : Option UInt64 :=
  record.peerEvent?.bind PeerEvent.height?

/-- The height from which a record has the wallet rescan. -/
def Record.rescan? (record : Record Payload) : Option UInt64 :=
  match record.body with
  | .event _ ⟨_, .wallet (.rescan height), _⟩ => some height
  | _ => none

/-- How many of the records have the wallet rescan. -/
def rescanCount (records : List (Record Payload)) : Nat :=
  (records.filterMap Record.rescan?).length

def Action.rescan? : Action Payload → Option UInt64
  | .signal _ _ _ (.wallet (.rescan height)) _ => some height
  | _ => none

namespace Subsystems

variable {s t u v w : Subsystems} {d : Deed} {deeds : List Deed} {h : HandlerId}
  {x : Handler Payload}

/-! ## What the states depend on -/

theorem peerEvent?_of_ne {record : Record Payload} (suits : Suits h record.body)
    (ne : h ≠ peers) : record.peerEvent? = none := by
  obtain ⟨serial, body⟩ := record
  cases suits with
  | peers => exact absurd rfl ne
  | _ => rfl

theorem rescan?_of_ne {record : Record Payload} (suits : Suits h record.body)
    (ne : h ≠ wallet) : record.rescan? = none := by
  obtain ⟨serial, body⟩ := record
  cases suits with
  | peers => rfl
  | _ => exact absurd rfl ne

/-- The roster is what the dispatched events make of it. -/
theorem Staffed.roster (staffed : s.Staffed) : s.roster =
    ((dispatched (s.story peers)).filterMap Record.peerEvent?).foldl Roster.process {} := by
  rw [← staffed.beginning fun _ _ => peerEvent?_of_ne]
  refine World.view_history id observePeers_other (fun h record r => ?_) s
  obtain ⟨serial, body⟩ := record
  cases body with
  | timeout setup e => rfl
  | event registration e =>
    obtain ⟨typeName, payload, script⟩ := e
    cases payload <;> rfl

/-- The wallet counts the rescans that it dispatches. -/
theorem Staffed.rescans (staffed : s.Staffed) : s.ledger.rescans =
    .ofNat (rescanCount (dispatched (s.story wallet))) := by
  have counted : s.ledger.rescans =
      (s.beginnings Record.rescan?).foldl (fun n _ => n + 1) 0 := by
    refine World.view_history Ledger.rescans observeWallet_other (fun h record l => ?_) s
    obtain ⟨serial, body⟩ := record
    cases body with
    | timeout setup e => rfl
    | event registration e =>
      obtain ⟨typeName, payload, script⟩ := e
      cases payload with
      | wallet e =>
        cases e with
        | withdrawal amount =>
          simp only [observeWallet, Ledger.process]
          split <;> rfl
        | _ => rfl
      | _ => rfl
  rw [counted, rescanCount, ← staffed.beginning fun _ _ => rescan?_of_ne]
  induction s.beginnings Record.rescan? using List.reverseRecOn with
  | nil => rfl
  | append_singleton heights height ih =>
    rw [List.foldl_append, ih, List.length_append]
    simp

/-! ## What is forwarded -/

/-- Whether the deed has the wallet rescan on the word of a thread outside. -/
def Deed.isRescan : Deed → Bool
  | tellWallet _ (.rescan _) => true
  | _ => false

/-- The rescans that have reached the wallet, with the one still to be forwarded, are the blocks
that the peers have dispatched. -/
structure Relays (s : Subsystems) : Prop where
  reach : World.Reachable s
  staffed : s.Staffed
  relayed : s.arrivals Record.rescan? ++ s.forwards.filterMap Action.rescan? =
    s.beginnings Record.block?

theorem Relays.after (relays : Relays s) (told : d.isRescan = false) :
    Relays (s.after d.operation) := by
  obtain ⟨reach, staffed, relayed⟩ := relays
  obtain ⟨staffed', upshot⟩ := staffed.after d
  refine ⟨reach.run (World.afterAll_run s [d.operation]), staffed', ?_⟩
  have fits : ∀ m, m ∈ World.mail (s.after d.operation) → Fits m := staffed'.mail
  clear staffed'
  generalize s.after d.operation = t at upshot fits
  -- what comes or begins, other than a forward, is no rescan, and only the peers dispatch blocks
  have post : ∀ m, World.mail t = m :: s.mail → forwards t = s.forwards →
      m.arriving? Record.rescan? = none → m.beginning? Record.block? = none →
      t.arrivals Record.rescan? ++ (forwards t).filterMap Action.rescan? =
        t.beginnings Record.block? := by
    intro m mail same arrives begins
    rw [World.arrivals_cons mail, World.beginnings_cons mail, arrives, begins, same]
    simpa using relayed
  cases upshot with
  | nothing _ posts =>
    have same : World.mail t = s.mail := posts.mail
    rw [World.arrivals, World.beginnings, same, posts.forwards]
    exact relayed
  | @wallet place e record body posts =>
    refine post _ posts.mail posts.forwards ?_ rfl
    cases e with
    | rescan height => cases told
    | _ => simp [Mail.arriving?, Record.rescan?, body]
  | peers body posts =>
    exact post _ posts.mail posts.forwards (by simp [Mail.arriving?, Record.rescan?, body]) rfl
  | tick body posts =>
    exact post _ posts.mail posts.forwards (by simp [Mail.arriving?, Record.rescan?, body]) rfl
  | @beginWallet record posts =>
    have suits : Suits wallet record.body := fits (.began wallet record) (by simp [posts.mail])
    refine post _ posts.mail posts.forwards rfl ?_
    simp [Mail.beginning?, Record.block?, peerEvent?_of_ne suits (by decide)]
  | @beginPeers record mail idle forwards =>
    have suits : Suits peers record.body := fits (.began peers record) (by simp [mail])
    rw [World.arrivals_cons mail, World.beginnings_cons mail, ← relayed, idle, forwards]
    obtain ⟨serial, body⟩ := record
    cases suits with
    | peers registration typeName e =>
      cases e <;> simp [Mail.arriving?, Mail.beginning?, Record.block?, Record.peerEvent?,
        PeerEvent.height?, RecordBody.script, peerScript, walletSignal, Action.rescan?]
  | @forward height record body idle forwards mail =>
    rw [World.arrivals_cons mail, World.beginnings_cons mail, ← relayed, idle, forwards]
    simp [Mail.arriving?, Mail.beginning?, Record.rescan?, body, walletSignal, Action.rescan?]

theorem Relays.play (relays : Relays s) (told : ∀ d ∈ deeds, d.isRescan = false) :
    Relays (s.play deeds) := by
  induction deeds using List.reverseRecOn with
  | nil => exact relays
  | append_singleton deeds d ih =>
    simp only [List.forall_mem_append, List.forall_mem_singleton] at told
    rw [play_concat]
    exact (ih told.1).after told.2

theorem create_relays (config : EventsConfig) (clock : ClockConfig) (tick : Duration) :
    Relays (create config clock tick canSpawn) :=
  ⟨create_reachable, create_staffed, rfl⟩

/-- Every dispatched block is to be forwarded, or its rescan has been accepted by the wallet. -/
theorem Relays.blocks (relays : Relays s) :
    (accepted (s.story wallet)).filterMap Record.rescan? ++ s.forwards.filterMap Action.rescan? =
      (dispatched (s.story peers)).filterMap Record.block? := by
  have only : ∀ g (record : Record Payload), Suits g record.body → g ≠ peers →
      record.block? = none := fun _ _ suits ne => by
    simp [Record.block?, peerEvent?_of_ne suits ne]
  rw [← relays.staffed.arriving fun _ _ => rescan?_of_ne, ← relays.staffed.beginning only]
  exact relays.relayed

/-- An accepted rescan has been dispatched, or the worker has it in hand, or it is queued, or it has
been discarded. -/
theorem length_rescans (reach : World.Reachable s) (hx : s.handlers[wallet]? = some x) :
    rescanCount (accepted (s.story wallet)) =
      rescanCount (dispatched (s.story wallet)) + rescanCount x.waiting.toList +
        rescanCount x.queue.events + rescanCount (discarded (s.story wallet)) := by
  have fates := ((reach.accounted hx).line_perm.filterMap Record.rescan?).length_eq
  rw [rescanCount, ← fates]
  simp [Handler.line, rescanCount, Nat.add_assoc]

/-- Where no thread can move, nothing is still to be forwarded. -/
theorem Staffed.forwards_eq_nil (staffed : s.Staffed) (still : s.move? = none) :
    s.forwards = [] := by
  obtain ⟨x, found, proper⟩ := staffed.find (h := peers) (by decide)
  obtain ⟨hx, -⟩ := World.find?_eq_some.mp found
  have rests : x.current.isSome = false := by
    by_contra busy
    have there := (List.getElem?_eq_some_iff.mp hx).1
    have current : x.current.isSome = true := (Bool.not_eq_false _).mp busy
    exact staffed.dispatch_moves hx current (moveWorker_eq_none still there)
  simp only [forwards, hx, Option.map_some, Option.getD_some, Handler.script]
  split
  · next hworker => simp [Handler.current, hworker] at rests
  · rfl

/-! ## Stops -/

/-- A stop of a handler that runs is called in `s`, and it can return in `t`; what is done meanwhile
and afterwards has the wallet rescan on nobody's word but the peers'. -/
def StopReturns (h : HandlerId) (s t : Subsystems) : Prop :=
  ∃ x during, s.find? h = some x ∧ x.isRunning = true ∧ (∀ d ∈ during, Deed.isRescan d = false) ∧
    t = s.play (.stop h :: during) ∧ (t.pauseEnd? (.exit h x.exits false)).isSome = true

/-- A stop returns where the flags of the handler say so. -/
theorem StopReturns.of_flags {during : List Deed}
    (runs : (s.find? h).map (fun x => (x.isRunning, x.exits)) = some (true, 0))
    (silent : ∀ d ∈ during, d.isRescan = false) (same : t = s.play (.stop h :: during))
    (ended : (t.pauseEnd? (.exit h 0 false)).isSome = true) : StopReturns h s t := by
  obtain ⟨x, found, runs⟩ := Option.map_eq_some_iff.mp runs
  obtain ⟨running, exits⟩ := Prod.mk.inj runs
  exact ⟨x, during, found, running, silent, same, exits ▸ ended⟩

/-- A handler serves where its flags say so. -/
theorem serves_of_flags
    (flags : (s.find? h).map (fun x => (x.isRunning, x.stopRequested)) = some (true, false)) :
    s.Serves h := by
  obtain ⟨x, found, flags⟩ := Option.map_eq_some_iff.mp flags
  obtain ⟨running, unasked⟩ := Prod.mk.inj flags
  exact ⟨x, found, running, unasked⟩

theorem StopReturns.run (returns : StopReturns h s t) : World.Run s t := by
  obtain ⟨x, during, -, -, -, rfl, -⟩ := returns
  exact play_run s _

theorem Relays.stopReturns (relays : Relays s) (returns : StopReturns h s t) : Relays t := by
  obtain ⟨x, during, -, -, told, rfl, -⟩ := returns
  exact relays.play (List.forall_mem_cons.mpr ⟨rfl, told⟩)

/-- The worker has left on the way, with the stop pending. -/
theorem Relays.leaves (relays : Relays s) (returns : StopReturns h s t) :
    ∃ (u u' : Subsystems) (z : Handler Payload), World.Run (s.play [.stop h]) u ∧
      World.Next u u' ∧ World.Run u' t ∧ z.stopRequested = true ∧
      u'.outline? h = some z.exit := by
  have relays' := relays.stopReturns returns
  obtain ⟨x, during, found, running, -, rfl, ended⟩ := returns
  have asked : World.find? (s.play [.stop h]) h = some x.stopRequest :=
    (congrArg (World.find? · h) (World.perform_stop s .outside found)).trans
      (World.find?_requestStop found running .outside false)
  have outlined := World.outline?_eq_some.mpr ⟨_, (World.find?_eq_some.mp asked).1, rfl⟩
  have running' : x.stopRequest.outline.isRunning = true :=
    x.stopRequest.isRunning_outline.trans running
  have goesOn : World.Run (s.play [.stop h]) (s.play (.stop h :: during)) := play_run _ during
  rcases World.Run.stays_or_leaves goesOn outlined running' rfl with
    ⟨y, hy, exits, -, -⟩ | left
  · -- the stop would still wait
    obtain ⟨z, hz, rfl⟩ := World.outline?_eq_some.mp hy
    have proper := relays'.staffed.proper h z hz
    have same : z.exits = x.exits := exits
    simp [World.pauseEnd?, World.find?_eq_some.mpr ⟨hz, proper.alive⟩, same] at ended
  · obtain ⟨u, u', z, before, leaves, after, -, -, -, asked', gone⟩ := left
    exact ⟨u, u', z, before, leaves, after, asked', gone⟩

/-- Once a stop has returned, the handler has no worker until one is started. -/
theorem Relays.vacant (relays : Relays s) (returns : StopReturns h s t) (run : World.Run t w)
    (unstarted : w.startups h = s.startups h) : w.Vacant h := by
  obtain ⟨u, u', z, before, leaves, after, -, gone⟩ := relays.leaves returns
  have le := World.Run.startups_le (h := h)
    ((play_run s [.stop h]).trans (before.tail leaves))
  have le' := World.Run.startups_le (h := h) (after.trans run)
  have vacant : u'.Vacant h := by
    intro y outlined
    obtain rfl := Option.some.inj (gone.symm.trans outlined)
    exact Handler.isRunning_exit
  exact vacant.run (after.trans run) (by omega)

theorem forwards_of_vacant (vacant : s.Vacant peers) : s.forwards = [] := by
  unfold forwards
  cases hx : s.handlers[peers]? with
  | none => rfl
  | some x =>
    have absent : x.outline.isRunning = false :=
      vacant x.outline (World.outline?_eq_some.mpr ⟨x, hx, rfl⟩)
    rw [x.isRunning_outline, Handler.isRunning, Option.isSome_eq_false_iff,
      Option.isNone_iff_eq_none] at absent
    simp [Handler.script, absent]

/-- Without a worker of the peers no rescan reaches the wallet. -/
theorem Relays.quiet (relays : Relays s) (relays' : Relays t) (run : World.Run s t)
    (vacant : s.Vacant peers) (unstarted : t.startups peers = s.startups peers) :
    (accepted (t.story wallet)).filterMap Record.rescan? =
      (accepted (s.story wallet)).filterMap Record.rescan? := by
  have vacant' := vacant.run run unstarted
  have kept := vacant.doomed.served_run relays.reach run unstarted
  rw [vacant.served, vacant'.served] at kept
  have blocks := relays.blocks
  have blocks' := relays'.blocks
  rw [forwards_of_vacant vacant, List.filterMap_nil, List.append_nil] at blocks
  rw [forwards_of_vacant vacant', List.filterMap_nil, List.append_nil] at blocks'
  rw [blocks, blocks', kept]

/-- After a stop of the peers and then of the wallet no rescan is left unserved, and none comes
until the peers are started again. -/
theorem Relays.swept (relays : Relays s) (peersStop : StopReturns peers s u)
    (walletStop : StopReturns wallet u v) (told : ∀ d ∈ deeds, d.isRescan = false)
    (unstarted : (v.play deeds).startups peers = s.startups peers)
    (hx : (v.play deeds).handlers[wallet]? = some x) :
    rescanCount x.unserved = 0 := by
  have relaysU := relays.stopReturns peersStop
  have relaysW := (relaysU.stopReturns walletStop).play told
  have later : World.Run v (v.play deeds) := play_run v deeds
  have asks : World.Run u (u.play [.stop wallet]) := play_run u _
  obtain ⟨t, t', z, before, leaves, after, asked, gone⟩ := relaysU.leaves walletStop
  have ends := before.trans (.head leaves (after.trans later))
  -- nothing reaches the wallet from its stop on
  have quiet : (accepted (World.story (v.play deeds) wallet)).filterMap Record.rescan? =
      (accepted (World.story (u.play [.stop wallet]) wallet)).filterMap Record.rescan? := by
    have le := World.Run.startups_le (h := peers) (peersStop.run.trans asks)
    have le' := World.Run.startups_le (h := peers) ends
    have relaysA : Relays (u.play [.stop wallet]) := relaysU.play (by simp [Deed.isRescan])
    refine relaysA.quiet relaysW ends ?_ (by omega)
    exact relays.vacant peersStop asks (by omega)
  have counts := congrArg List.length quiet
  rw [List.length_filterMap_eq_countP, List.length_filterMap_eq_countP] at counts
  have le := World.Run.countP_accepted_le (h := wallet) (p := fun r => r.rescan?.isSome)
    (before.tail leaves)
  have le' := World.Run.countP_accepted_le (h := wallet) (p := fun r => r.rescan?.isSome)
    (after.trans later)
  have emptied : ∀ record ∈ z.exit.unserved, record.rescan?.isSome = false := by
    rw [Handler.unserved_exit asked]
    nofun
  obtain ⟨y, outlined, clean⟩ := World.Run.unserved (after.trans later) gone emptied (by omega)
  obtain rfl := Option.some.inj
    ((World.outline?_eq_some.mpr ⟨x, hx, rfl⟩ : _ = some x.outline).symm.trans outlined)
  rw [x.unserved_outline] at clean
  rw [rescanCount, List.length_filterMap_eq_countP]
  exact List.countP_eq_zero.mpr fun record member => by simp [clean record member]

theorem isRescan_of_isMove (move : d.isMove = true) : d.isRescan = false ∧ d ≠ .stop h := by
  cases d <;> simp_all [Deed.isMove, Deed.isRescan]

/-- A call of a stop that succeeds has returned. -/
theorem stopReturns_call {patience : Nat} (found : s.find? h = some x)
    (running : x.isRunning = true) (done : (s.call patience (.stop h)).2 = .done) :
    StopReturns h s (s.call patience (.stop h)).1 := by
  obtain ⟨moves, only, played⟩ := call_play patience s (d := .stop h) rfl
  refine ⟨x, moves, found, running, fun d move => (isRescan_of_isMove (h := h) (only d move)).1,
    played, ?_⟩
  have waits : (s.perform .outside (.stop h)) =
      ((s.requestStop .outside h x false).1, .waits (.exit h x.exits false)) := by
    simp [World.perform, World.withHandler, found, World.requestStop, running]
  unfold World.call at done ⊢
  rw [waits] at done ⊢
  simp only at done ⊢
  cases ended : World.pauseEnd? (World.settle patience (s.requestStop .outside h x false).1)
      (.exit h x.exits false) with
  | none => simp [ended] at done
  | some result =>
    have same : result.1 = World.settle patience (s.requestStop .outside h x false).1 :=
      pauseEnd?_eq_self ended
    rw [Option.getD_some, same, ended]
    rfl

/-! ## Whole runs -/

theorem Staffed.panics (staffed : s.Staffed) (h : HandlerId) : s.panics h = 0 := by
  refine List.countP_eq_zero.mpr fun o member panicked => ?_
  cases o with
  | panicked g record =>
    exact (staffed.unfailing (List.mem_filter.mp member).1).2.2 g record rfl
  | _ => cases panicked

/-- A handler serves until it is asked to stop. -/
theorem Relays.serves (relays : Relays s) (serves : s.Serves h)
    (told : ∀ d ∈ deeds, d.isRescan = false ∧ d ≠ .stop h) : (s.play deeds).Serves h := by
  induction deeds using List.reverseRecOn with
  | nil => exact serves
  | append_singleton deeds d ih =>
    simp only [List.forall_mem_append, List.forall_mem_singleton] at told
    obtain ⟨told, silent, unstopped⟩ := told
    have relays' := relays.play fun d member => (told d member).1
    have serves' := ih told
    have staffed := (relays'.after silent).staffed
    rw [play_concat]
    rcases World.after_cases (s.play deeds) d.operation with same | step
    · rwa [same]
    · refine (serves'.step relays'.reach step ?_ (by rw [staffed.panics, relays'.staffed.panics])).1
      by_cases cleared : d = .clear h
      · subst cleared
        exact (World.Calls.outside _).unasked_of_clear serves'.unasked
      · exact (relays'.staffed.spares unstopped cleared serves'.unasked).1

/-- The program's stop of both handlers leaves no rescan either. -/
theorem Relays.swept_stopAll {patience : Nat} (relays : Relays s) (peersServe : s.Serves peers)
    (walletServes : s.Serves wallet) (peersDone : (s.call patience (.stop peers)).2 = .done)
    (walletDone : (s.stopAll patience).2 = .done) (told : ∀ d ∈ deeds, d.isRescan = false)
    (unstarted : ((s.stopAll patience).1.play deeds).startups peers = s.startups peers)
    (hx : ((s.stopAll patience).1.play deeds).handlers[wallet]? = some x) :
    rescanCount x.unserved = 0 := by
  obtain ⟨moves, only, played⟩ := call_play patience s (d := .stop peers) rfl
  obtain ⟨y, found, running, -⟩ := peersServe
  have peersStop := stopReturns_call found running peersDone
  have stays : World.Serves (s.call patience (.stop peers)).1 wallet := by
    rw [played]
    refine relays.serves walletServes (List.forall_mem_cons.mpr ⟨⟨rfl, ?_⟩, fun d move => ?_⟩)
    · simp [peers, wallet]
    · exact isRescan_of_isMove (only d move)
  obtain ⟨z, found', running', -⟩ := stays
  exact relays.swept peersStop (stopReturns_call found' running' walletDone) told unstarted hx

/-- If the wallet rescans on the word of the peers only: the roster's height is the greatest of the
dispatched blocks, or zero; a peer is connected if the last dispatched event about its connection
says so; where no thread can move, the dispatched blocks are as many as the rescans that the wallet
has dispatched and counted, that its worker has in hand, that are queued and that have been
discarded; and nothing that a dispatcher does fails. When the peers and then the wallet are stopped
while they run, as the wallet does if it did when the peers' stop was called and nobody else stops
it, no rescan is left unserved once both stops have returned, and none comes until the peers are
started again. So it is when both are stopped in one request. -/
theorem blocks_become_rescans (config : EventsConfig) (clock : ClockConfig) (tick : Duration)
    (told : ∀ d ∈ deeds, d.isRescan = false) :
    let s := (create config clock tick canSpawn).play deeds
    let blocks := (dispatched (World.story s peers)).filterMap Record.block?
    (0 :: blocks).max? = some s.roster.height ∧
    (∀ peer, peer ∈ s.roster.connected ↔
      ((dispatched (World.story s peers)).filterMap fun record =>
        record.peerEvent?.bind (PeerEvent.presence? peer)).getLast? = some true) ∧
    s.ledger.rescans = .ofNat (rescanCount (dispatched (World.story s wallet))) ∧
    (s.move? = none → ∃ x, s.handlers[wallet]? = some x ∧
      blocks.length = rescanCount (dispatched (World.story s wallet)) +
        rescanCount x.waiting.toList + rescanCount x.queue.events +
          rescanCount (discarded (World.story s wallet))) ∧
    (∀ o ∈ s.history, (∀ h error, o ≠ .refused h error) ∧
      ∀ h reply, o = .replied h reply → reply = .done) ∧
    (World.Serves s wallet → ∀ during : List Deed,
      (∀ d ∈ during, d.isRescan = false ∧ d ≠ .stop wallet) →
        World.Serves (s.play (.stop peers :: during)) wallet) ∧
    (∀ (u v : Subsystems) (more : List Deed) (x : Handler Payload), StopReturns peers s u →
      StopReturns wallet u v → (∀ d ∈ more, d.isRescan = false) →
      World.startups (v.play more) peers = World.startups s peers →
      (v.play more).handlers[wallet]? = some x → rescanCount x.unserved = 0) ∧
    ∀ (patience : Nat) (more : List Deed) (x : Handler Payload), World.Serves s peers →
      World.Serves s wallet → (s.call patience (.stop peers)).2 = .done →
      (s.stopAll patience).2 = .done → (∀ d ∈ more, d.isRescan = false) →
      World.startups ((s.stopAll patience).1.play more) peers = World.startups s peers →
      ((s.stopAll patience).1.play more).handlers[wallet]? = some x →
        rescanCount x.unserved = 0 := by
  intro s blocks
  have relays : Relays s := (create_relays config clock tick).play told
  have roster := relays.staffed.roster
  refine ⟨?_, fun peer => ?_, relays.staffed.rescans, fun still => ?_, fun o member => ?_,
    fun serves during quiet => ?_, fun u v more x peersStop walletStop => ?_,
    fun patience more x => relays.swept_stopAll⟩
  · have heights : blocks = ((dispatched (World.story s peers)).filterMap
        Record.peerEvent?).filterMap PeerEvent.height? := List.filterMap_filterMap.symm
    rw [List.max?_cons', heights, roster, Roster.height_foldl]
  · rw [roster, Roster.mem_connected_iff, List.filterMap_filterMap]
  · obtain ⟨x, found, -⟩ := relays.staffed.find (h := wallet) (by decide)
    obtain ⟨hx, -⟩ := World.find?_eq_some.mp found
    have forwarded := relays.blocks
    rw [relays.staffed.forwards_eq_nil still, List.filterMap_nil, List.append_nil] at forwarded
    exact ⟨x, hx, (congrArg List.length forwarded).symm.trans (length_rescans relays.reach hx)⟩
  · obtain ⟨unrefused, succeeds, -⟩ := relays.staffed.unfailing member
    exact ⟨unrefused, succeeds⟩
  · refine relays.serves serves (List.forall_mem_cons.mpr ⟨⟨rfl, ?_⟩, quiet⟩)
    simp [peers, wallet]
  · exact relays.swept peersStop walletStop

/-- Of two blocks one is rescanned from, and the rescan of the other is discarded by a clear. Then
both handlers are stopped while the peers are dispatching a third block, step by step and in one
request, and the stop of the wallet discards its rescan; a fourth block is signalled after that. -/
theorem rescans_of_three_blocks :
    let deeds : List Deed := [.start peers, .tellPeers .tail (.connected 1),
        .tellPeers .tail (.connected 2), .tellPeers .tail (.disconnected 1),
        .tellPeers .tail (.newBlock 900)] ++ List.replicate 13 (.worker peers) ++
      [.clear wallet, .start wallet, .tellPeers .tail (.newBlock 7)] ++
      List.replicate 4 (.worker peers) ++ List.replicate 3 (.worker wallet) ++
        [.timer sharedClock 0]
    let third : List Deed := [.tellPeers .tail (.newBlock 8), .worker peers, .worker peers]
    let later : List Deed := [.tellPeers .tail (.newBlock 9), .start wallet, .worker peers]
    let s := (create {} {} (.ofMillis 10)).play deeds
    let t := (create {} {} (.ofMillis 10)).play (deeds ++ third)
    let u := t.play (.stop peers :: List.replicate 3 (.worker peers))
    let v := u.play [.stop wallet, .worker wallet]
    (s.roster, s.ledger.rescans, s.move?.isNone) = (⟨[2], 900⟩, 1, true) ∧
    (dispatched (World.story s peers)).filterMap Record.block? = [900, 7] ∧
    (∃ x, s.handlers[wallet]? = some x ∧
      2 = 1 + rescanCount x.waiting.toList + rescanCount x.queue.events + 1) ∧
    (u.handlers[wallet]?).map (rescanCount ·.unserved) = some 1 ∧
    (∃ x, (v.play later).handlers[wallet]? = some x ∧ rescanCount x.unserved = 0) ∧
    ∃ x, ((t.stopAll 9).1.play later).handlers[wallet]? = some x ∧ rescanCount x.unserved = 0 := by
  intro deeds third later s t u v
  have told : ∀ d ∈ deeds ++ third, d.isRescan = false := by decide +kernel
  have told' : ∀ d ∈ deeds, d.isRescan = false := fun d member =>
    told d (List.mem_append_left _ member)
  have silent : ∀ d ∈ later, d.isRescan = false := by decide +kernel
  have still : s.move? = none := Option.isNone_iff_eq_none.mp (by decide +kernel)
  have peersStop : StopReturns peers t u :=
    .of_flags (by decide +kernel) (by decide +kernel) rfl (by decide +kernel)
  have walletStop : StopReturns wallet u v :=
    .of_flags (by decide +kernel) (by decide +kernel) rfl (by decide +kernel)
  have blocks : (dispatched (World.story s peers)).filterMap Record.block? = [900, 7] := by
    decide +kernel
  have counted : rescanCount (dispatched (World.story s wallet)) = 1 := by decide +kernel
  have lost : rescanCount (discarded (World.story s wallet)) = 1 := by decide +kernel
  obtain ⟨-, -, -, conserved, -⟩ := blocks_become_rescans {} {} (.ofMillis 10) told'
  obtain ⟨-, -, -, -, -, -, swept, sweptBoth⟩ := blocks_become_rescans {} {} (.ofMillis 10) told
  obtain ⟨x, hx, conserved⟩ := conserved still
  have sums : 2 = rescanCount (dispatched (World.story s wallet)) +
      rescanCount x.waiting.toList + rescanCount x.queue.events +
        rescanCount (discarded (World.story s wallet)) :=
    (congrArg List.length blocks).symm.trans conserved
  rw [counted, lost] at sums
  obtain ⟨y, hy⟩ : ∃ y, (v.play later).handlers[wallet]? = some y :=
    Option.isSome_iff_exists.mp (by decide +kernel)
  obtain ⟨z, hz⟩ : ∃ z, ((t.stopAll 9).1.play later).handlers[wallet]? = some z :=
    Option.isSome_iff_exists.mp (by decide +kernel)
  refine ⟨by decide +kernel, blocks, ⟨x, hx, sums⟩, by decide +kernel, ⟨y, hy, ?_⟩, z, hz, ?_⟩
  · exact swept u v later y peersStop walletStop silent (by decide +kernel) hy
  · exact sweptBoth 9 later z (serves_of_flags (by decide +kernel))
      (serves_of_flags (by decide +kernel)) (Reply.eq_done (by decide +kernel))
      (Reply.eq_done (by decide +kernel)) silent (by decide +kernel) hz

end Subsystems
end EventEngine
