import EventEngine.Proofs.StopBarrier
import EventEngine.Proofs.Subsystems.Sessions
import EventEngine.Proofs.TailOrder
import Mathlib.Data.List.Basic

/-!
# Results of the wallet

Balance and refusals follow from the deposits and withdrawals in the order of their dispatches.
Rescans and ticks go ahead of them but change neither, and deposits and withdrawals that are
signalled at the tail are dispatched in the order of their signals, whatever else goes on.
-/
namespace EventEngine

open Occurrence

def WalletEvent.isCash : WalletEvent → Bool
  | deposit _ | withdrawal _ => true
  | rescan _ => false

def Record.cash? (record : Record Payload) : Option WalletEvent :=
  match record.body with
  | .event _ ⟨_, .wallet e, _⟩ => if e.isCash then some e else none
  | _ => none

namespace Ledger

/-- What no rescan and no tick changes. -/
def accounts (l : Ledger) : UInt64 × UInt64 := (l.balance, l.rejected)

/-- What an event makes of the balance and of the number of refusals. -/
def book (a : UInt64 × UInt64) (e : WalletEvent) : UInt64 × UInt64 :=
  (process { balance := a.1, rejected := a.2 } e).accounts

theorem accounts_process (l : Ledger) (e : WalletEvent) :
    (l.process e).accounts = book l.accounts e := by
  cases e with
  | withdrawal amount =>
    by_cases enough : amount ≤ l.balance <;> simp [book, process, accounts, enough]
  | _ => rfl

/-- Rescans make no difference. -/
theorem book_cash (events : List WalletEvent) (a : UInt64 × UInt64) :
    (events.filter WalletEvent.isCash).foldl book a = events.foldl book a := by
  induction events generalizing a with
  | nil => rfl
  | cons e rest ih => cases e <;> exact ih _

end Ledger

namespace Subsystems

variable {s t : Subsystems} {deeds : List Deed} {d : Deed}

/-! ## What the ledger depends on -/

/-- The ledger agrees with the deposits and withdrawals dispatched so far. -/
theorem accounts_ledger (s : Subsystems) :
    s.ledger.accounts = (s.beginnings Record.cash?).foldl Ledger.book (0, 0) := by
  refine World.view_history Ledger.accounts observeWallet_other (fun h record l => ?_) s
  obtain ⟨serial, body⟩ := record
  cases body with
  | timeout setup e => rfl
  | event registration e =>
    obtain ⟨typeName, payload, script⟩ := e
    cases payload with
    | wallet e =>
      cases e with
      | rescan n => rfl
      | _ => exact l.accounts_process _
    | _ => rfl

/-- Deposits and withdrawals are for the wallet only. -/
theorem cash?_of_ne {h : HandlerId} {record : Record Payload} (suits : Suits h record.body)
    (ne : h ≠ wallet) : record.cash? = none := by
  obtain ⟨serial, body⟩ := record
  cases suits with
  | peers => rfl
  | _ => exact absurd rfl ne

/-! ## What is signalled -/

/-- What is signalled to the wallet at the tail. -/
def Deed.signalled? : Deed → Option WalletEvent
  | tellWallet .tail e => some e
  | _ => none

/-- Whether the deed leaves the wallet running and what is queued on it in place, and puts nothing
ahead of it. -/
def Deed.isPeaceful : Deed → Bool
  | tellWallet place _ => place = .tail
  | stop h | clear h => h ≠ wallet
  | _ => true

theorem signalled?_of_untold (untold : d.tells = false) : d.signalled? = none := by
  cases d with
  | tellWallet => cases untold
  | _ => rfl

/-- Deposits and withdrawals have joined the queue as they were signalled, at the tail. -/
structure Inflow (deeds : List Deed) (s : Subsystems) : Prop where
  cash : s.arrivals Record.cash? = (deeds.filterMap Deed.signalled?).filter WalletEvent.isCash
  tail : ∀ record, .arrived wallet .head record ∈ s.mail → record.cash? = none

theorem Inflow.post {m : Mail Payload} (inflow : Inflow deeds s) (mail : t.mail = m :: s.mail)
    (cash : (m.arriving? Record.cash?).toList =
      d.signalled?.toList.filter WalletEvent.isCash)
    (tail : ∀ record, m = .arrived wallet .head record → record.cash? = none) :
    Inflow (deeds ++ [d]) t := by
  refine ⟨?_, fun record member => ?_⟩
  · have signals : [d].filterMap Deed.signalled? = d.signalled?.toList := by
      cases found : d.signalled? <;> simp [found]
    rw [World.arrivals_cons mail, inflow.cash, cash, List.filterMap_append, signals,
      List.filter_append]
  · rw [mail] at member
    rcases List.mem_cons.mp member with same | member
    · exact tail record same.symm
    · exact inflow.tail record member

theorem Inflow.after (inflow : Inflow deeds s) (staffed : s.Staffed)
    (peaceful : d.isPeaceful = true) : Inflow (deeds ++ [d]) (s.after d.operation) := by
  have upshot := (staffed.after d).2
  generalize s.after d.operation = t at upshot
  cases upshot with
  | nothing untold posts =>
    have unsaid : d.signalled? = none := signalled?_of_untold untold
    have same : World.mail t = s.mail := posts.mail
    refine ⟨?_, by simpa [same] using inflow.tail⟩
    rw [World.arrivals, same, ← World.arrivals, inflow.cash]
    simp [unsaid]
  | @wallet place e record body posts =>
    obtain rfl : place = .tail := by simpa [Deed.isPeaceful] using peaceful
    refine inflow.post posts.mail ?_ (by rintro _ ⟨⟩)
    have cash : record.cash? = if e.isCash then some e else none := by simp [Record.cash?, body]
    cases e <;>
      simp [Mail.arriving?, cash, Deed.signalled?, WalletEvent.isCash, List.filter_cons]
  | peers body posts =>
    exact inflow.post posts.mail
      (by simp [Mail.arriving?, Record.cash?, body, Deed.signalled?]) (by rintro _ ⟨⟩)
  | @tick c generation setup e record body posts =>
    have apart : record.cash? = none := by simp [Record.cash?, body]
    refine inflow.post posts.mail (by simp [Mail.arriving?, apart, Deed.signalled?]) ?_
    rintro _ ⟨⟩
    exact apart
  | beginWallet posts =>
    exact inflow.post posts.mail (by simp [Mail.arriving?, Deed.signalled?]) (by rintro _ ⟨⟩)
  | beginPeers mail _ _ =>
    exact inflow.post mail (by simp [Mail.arriving?, Deed.signalled?]) (by rintro _ ⟨⟩)
  | @forward n record body _ _ mail =>
    have apart : record.cash? = none := by simp [Record.cash?, body, WalletEvent.isCash]
    refine inflow.post mail (by simp [Mail.arriving?, apart, Deed.signalled?]) ?_
    rintro _ ⟨⟩
    exact apart

variable {config : EventsConfig} {clock : ClockConfig} {tick : Duration} {canSpawn : Nat → Bool}

/-- After peaceful deeds everything has joined the wallet's queue as it was signalled, and nothing
has been discarded. -/
theorem peaceful_play (peaceful : ∀ d ∈ deeds, d.isPeaceful = true) :
    Inflow deeds ((create config clock tick canSpawn).play deeds) ∧
      World.Unasked ((create config clock tick canSpawn).play deeds) wallet ∧
      discarded (World.story ((create config clock tick canSpawn).play deeds) wallet) = [] := by
  induction deeds using List.reverseRecOn with
  | nil =>
    refine ⟨⟨rfl, nofun⟩, fun x hx => ?_, rfl⟩
    cases hx
    rfl
  | append_singleton deeds d ih =>
    simp only [List.forall_mem_append, List.forall_mem_singleton] at peaceful
    obtain ⟨inflow, unasked, whole⟩ := ih peaceful.1
    have unstopped : d ≠ .stop wallet := by
      rintro rfl
      simp [Deed.isPeaceful] at peaceful
    have uncleared : d ≠ .clear wallet := by
      rintro rfl
      simp [Deed.isPeaceful] at peaceful
    obtain ⟨unasked', kept⟩ := play_staffed.spares unstopped uncleared unasked
    rw [play_concat]
    exact ⟨inflow.after play_staffed peaceful.2, unasked', kept.trans whole⟩

/-- Once everything is dispatched, the wallet has dispatched the deposits and withdrawals as they
were signalled. -/
theorem dispatched_as_signalled (peaceful : ∀ d ∈ deeds, d.isPeaceful = true)
    {x : Handler Payload}
    (hx : ((create config clock tick canSpawn).play deeds).handlers[wallet]? = some x)
    (waiting : x.waiting = none) (empty : x.queue.events = []) :
    ((create config clock tick canSpawn).play deeds).beginnings Record.cash? =
      (deeds.filterMap Deed.signalled?).filter WalletEvent.isCash := by
  obtain ⟨inflow, -, whole⟩ := @peaceful_play deeds config clock tick canSpawn peaceful
  have outlined := World.outline?_eq_some.mpr ⟨x, hx, rfl⟩
  have tail : ∀ record,
      .enqueued wallet .head record ∈
        World.story ((create config clock tick canSpawn).play deeds) wallet →
        record.cash?.isSome = false := fun record told =>
    Option.isSome_eq_false_iff.mpr
      (Option.isNone_iff_eq_none.mpr (inflow.tail record (World.mem_mail_of_mem_story told)))
  have ordered := play_reachable.in_order outlined whole tail
  have idle : x.outline.waiting = none := (Handler.waiting_outline x).trans waiting
  have drained : x.outline.queue.events = [] := empty
  have line : x.outline.line (World.story ((create config clock tick canSpawn).play deeds) wallet) =
      dispatched (World.story ((create config clock tick canSpawn).play deeds) wallet) := by
    simp [Handler.line, idle, drained]
  have only : ∀ records : List (Record Payload),
      (records.filter (·.cash?.isSome)).filterMap Record.cash? =
        records.filterMap Record.cash? := by
    intro records
    rw [List.filterMap_filter]
    refine List.filterMap_congr fun record _ => ?_
    cases cash : record.cash? <;> simp
  rw [line] at ordered
  rw [play_staffed.beginning fun _ _ => cash?_of_ne, ← only, ordered, only,
    ← play_staffed.arriving fun _ _ => cash?_of_ne, inflow.cash]

/-- Balance and refusals follow from what is signalled at the tail. -/
theorem accounts_as_signalled (peaceful : ∀ d ∈ deeds, d.isPeaceful = true)
    {x : Handler Payload}
    (hx : ((create config clock tick canSpawn).play deeds).handlers[wallet]? = some x)
    (waiting : x.waiting = none) (empty : x.queue.events = []) :
    ((create config clock tick canSpawn).play deeds).ledger.accounts =
      (deeds.filterMap Deed.signalled?).foldl Ledger.book (0, 0) := by
  rw [accounts_ledger, dispatched_as_signalled peaceful hx waiting empty]
  exact Ledger.book_cash _ _

/-- The wallet runs and no thread can move, so that nothing is pending on it. -/
structure IsServed (s : Subsystems) : Prop where
  still : s.move? = none
  running : ((s.handlers[wallet]?).map Handler.isRunning).getD false = true

theorem accounts_of_served (peaceful : ∀ d ∈ deeds, d.isPeaceful = true)
    (served : IsServed ((create config clock tick canSpawn).play deeds)) :
    ((create config clock tick canSpawn).play deeds).ledger.accounts =
      (deeds.filterMap Deed.signalled?).foldl Ledger.book (0, 0) := by
  obtain ⟨still, running⟩ := served
  cases hx : ((create config clock tick canSpawn).play deeds).handlers[wallet]? with
  | none => simp [hx] at running
  | some x =>
    rw [hx, Option.map_some, Option.getD_some] at running
    obtain ⟨idle, empty, -⟩ := play_staffed.at_rest play_reachable lock_there still hx running
    exact accounts_as_signalled peaceful hx (by simp [Handler.waiting, idle]) empty

theorem filterMap_signalled (deeds : List Deed) :
    (deeds.filter Deed.tells).filterMap Deed.signalled? = deeds.filterMap Deed.signalled? := by
  rw [List.filterMap_filter]
  refine List.filterMap_congr fun d _ => ?_
  split
  · rfl
  · next untold => exact (signalled?_of_untold (by simpa using untold)).symm

/-- Whatever is asked for in one batch, the accounts are as asked for once the wallet has been
served. -/
theorem accounts_of_batch (patience : Nat) {requests : List SubsystemRequest}
    (peaceful : ∀ d ∈ requests.flatMap deedsOf, d.isPeaceful = true)
    (served : IsServed ((create config clock tick canSpawn).batch patience requests).1) :
    ((create config clock tick canSpawn).batch patience requests).1.ledger.accounts =
      ((requests.flatMap deedsOf).filterMap Deed.signalled?).foldl Ledger.book (0, 0) := by
  obtain ⟨deeds, follows, played⟩ :=
    plays_batch patience (create config clock tick canSpawn) requests
  rw [played] at served ⊢
  have peaceful' : ∀ d ∈ deeds, d.isPeaceful = true := by
    intro d member
    rcases follows.only d member with moves | asked
    · cases d <;> first | rfl | cases moves
    · exact peaceful d asked
  rw [accounts_of_served peaceful' served, ← filterMap_signalled, follows.told, filterMap_signalled]

/-- Two runs in which the same is signalled to the wallet at the tail, and in which the wallet is
neither stopped nor cleared, end with the same balance and as many refusals once the wallet runs and
no thread can move: whatever the peers are told and when, however many rescans they forward, however
often the wallet ticks, and whenever the handlers are started. -/
theorem wallet_results_ignore_peers {config' : EventsConfig} {clock' : ClockConfig}
    {tick' : Duration} {canSpawn' : Nat → Bool} {deeds' : List Deed}
    (peaceful : ∀ d ∈ deeds, d.isPeaceful = true)
    (peaceful' : ∀ d ∈ deeds', d.isPeaceful = true)
    (same : deeds.filterMap Deed.signalled? = deeds'.filterMap Deed.signalled?)
    (served : IsServed ((create config clock tick canSpawn).play deeds))
    (served' : IsServed ((create config' clock' tick' canSpawn').play deeds')) :
    ((create config clock tick canSpawn).play deeds).ledger.balance =
        ((create config' clock' tick' canSpawn').play deeds').ledger.balance ∧
      ((create config clock tick canSpawn).play deeds).ledger.rejected =
        ((create config' clock' tick' canSpawn').play deeds').ledger.rejected := by
  refine Prod.mk.inj ?_
  have accounts := accounts_of_served peaceful served
  have accounts' := accounts_of_served peaceful' served'
  rw [same] at accounts
  exact accounts.trans accounts'.symm

/-- A block and a tick in between, or peers that are never started. -/
theorem results_with_and_without_peers :
    let moves : List Deed :=
      List.replicate 3 (.timer sharedClock 0) ++ List.replicate 15 (.worker wallet)
    let s := (create {} {} (.ofMillis 10)).play ([.tellWallet .tail (.deposit 50),
      .tellWallet .tail (.withdrawal 80), .start wallet, .start peers,
      .tellPeers .tail (.newBlock 900), .worker peers, .worker peers, .worker peers, .worker peers,
      .tellWallet .tail (.withdrawal 20), .advance (.ofMillis 10)] ++ moves)
    let t := (create {} {} (.ofMillis 10)).play ([.start wallet, .tellWallet .tail (.deposit 50),
      .tellWallet .tail (.withdrawal 80), .tellWallet .tail (.withdrawal 20)] ++ moves)
    s.ledger = ⟨30, 1, 1, 1⟩ ∧ t.ledger = ⟨30, 1, 0, 0⟩ ∧
      s.ledger.balance = t.ledger.balance ∧ s.ledger.rejected = t.ledger.rejected := by
  intro moves s t
  have served : IsServed s := ⟨by decide +kernel, by decide +kernel⟩
  have served' : IsServed t := ⟨by decide +kernel, by decide +kernel⟩
  have results := wallet_results_ignore_peers (by decide +kernel) (by decide +kernel)
    (by decide +kernel) served served'
  exact ⟨by decide +kernel, by decide +kernel, results⟩

end Subsystems
end EventEngine
