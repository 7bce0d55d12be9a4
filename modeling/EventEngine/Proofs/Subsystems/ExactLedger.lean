import EventEngine.Proofs.Subsystems.WalletResults
import Mathlib.Data.List.Infix

/-!
# The ledger in whole numbers

The wallet's balance has 64 bits. A withdrawal is checked against it, a deposit is not: one that
takes the balance past the limit wraps it around, and 2^64 are gone. Nothing else loses or makes
money. So the ledger is that of an account in whole numbers for as long as the account's balance
fits, and then a deposit lowers the balance.
-/
namespace EventEngine

open Occurrence

def WalletEvent.putIn : WalletEvent → Nat
  | deposit amount => amount.toNat
  | _ => 0

def WalletEvent.asked : WalletEvent → Nat
  | withdrawal amount => amount.toNat
  | _ => 0

/-- A wallet in whole numbers: what has been put in and taken out, and how often too much has been
asked for. -/
structure Account where
  deposited : Nat := 0
  withdrawn : Nat := 0
  refused : Nat := 0
  deriving DecidableEq

namespace Account

/-- What is there. -/
def balance (a : Account) : Nat := a.deposited - a.withdrawn

/-- A deposit is added, and a withdrawal of at most the balance is subtracted. Any other withdrawal
is refused. -/
def process (a : Account) (e : WalletEvent) : Account :=
  if e.asked ≤ a.balance then
    { a with deposited := a.deposited + e.putIn, withdrawn := a.withdrawn + e.asked }
  else { a with refused := a.refused + 1 }

def ofEvents (events : List WalletEvent) : Account := events.foldl process {}

/-- Whether 64 bits are enough for the account. -/
def Fits (a : Account) : Prop := a.balance < UInt64.size ∧ a.refused < UInt64.size

/-- An account is never overdrawn. -/
theorem withdrawn_le (events : List WalletEvent) :
    (ofEvents events).withdrawn ≤ (ofEvents events).deposited := by
  induction events using List.reverseRecOn with
  | nil => exact Nat.le_refl 0
  | append_singleton events e ih =>
    rw [ofEvents, List.foldl_concat, ← ofEvents]
    unfold process balance
    split <;> dsimp only <;> omega

variable {a : Account} {e : WalletEvent}

theorem balance_process (enough : e.asked ≤ a.balance) (covered : a.withdrawn ≤ a.deposited) :
    (a.process e).balance = a.balance + e.putIn - e.asked := by
  rw [process, if_pos enough]
  simp only [balance] at *
  omega

theorem refused_process (enough : e.asked ≤ a.balance) : (a.process e).refused = a.refused := by
  rw [process, if_pos enough]

theorem process_of_lt (short : a.balance < e.asked) :
    a.process e = { a with refused := a.refused + 1 } :=
  if_neg (Nat.not_le.mpr short)

end Account

namespace Ledger

variable {l : Ledger} {a : Account} {events : List WalletEvent} {e : WalletEvent}

def ofEvents (events : List WalletEvent) : Ledger := events.foldl process {}

theorem ofEvents_concat (events : List WalletEvent) (e : WalletEvent) :
    ofEvents (events ++ [e]) = (ofEvents events).process e :=
  List.foldl_concat ..

theorem accounts_ofEvents (events : List WalletEvent) :
    (ofEvents events).accounts = events.foldl book (0, 0) := by
  induction events using List.reverseRecOn with
  | nil => rfl
  | append_singleton events e ih =>
    rw [ofEvents_concat, accounts_process, ih, List.foldl_concat]

/-! ## What an event does to the money -/

theorem refuses_iff (l : Ledger) (e : WalletEvent) :
    l.refuses e = true ↔ l.balance.toNat < e.asked := by
  cases e <;> simp [refuses, WalletEvent.asked, UInt64.lt_iff_toNat_lt]

/-- What an event takes out of the ledger. -/
def paidOut (l : Ledger) (e : WalletEvent) : Nat := if l.refuses e then 0 else e.asked

def refusals (l : Ledger) (e : WalletEvent) : Nat := (l.refuses e).toNat

/-- How often an event wraps the balance around. -/
def overflows (l : Ledger) (e : WalletEvent) : Nat :=
  (decide (UInt64.size ≤ l.balance.toNat + e.putIn)).toNat

theorem overflows_cases (l : Ledger) (e : WalletEvent) :
    UInt64.size ≤ l.balance.toNat + e.putIn ∧ l.overflows e = 1 ∨
      l.balance.toNat + e.putIn < UInt64.size ∧ l.overflows e = 0 := by
  by_cases wraps : UInt64.size ≤ l.balance.toNat + e.putIn
  · exact .inl ⟨wraps, by rw [overflows, decide_eq_true wraps]; rfl⟩
  · exact .inr ⟨Nat.not_le.mp wraps, by rw [overflows, decide_eq_false wraps]; rfl⟩

theorem overflows_eq_zero (nothing : e.putIn = 0) : l.overflows e = 0 := by
  have balance := l.balance.toNat_lt_size
  rcases l.overflows_cases e with ⟨wraps, -⟩ | ⟨-, none⟩ <;> omega

/-- A deposit is added, or wraps the balance around. -/
theorem toNat_deposit (l : Ledger) (amount : UInt64) :
    (l.process (.deposit amount)).balance.toNat + UInt64.size * l.overflows (.deposit amount) =
      l.balance.toNat + amount.toNat := by
  have balance := l.balance.toNat_lt_size
  have amounts := amount.toNat_lt_size
  have sum : (l.process (.deposit amount)).balance.toNat =
      (l.balance.toNat + amount.toNat) % UInt64.size := UInt64.toNat_add ..
  rcases l.overflows_cases (.deposit amount) with ⟨wraps, once⟩ | ⟨fits, never⟩ <;>
    simp only [WalletEvent.putIn, UInt64.size] at * <;> omega

/-- A deposit lowers the balance if and only if it wraps it around. -/
theorem deposit_lowers_iff (l : Ledger) (amount : UInt64) :
    (l.process (.deposit amount)).balance < l.balance ↔
      UInt64.size ≤ l.balance.toNat + amount.toNat := by
  have added := l.toNat_deposit amount
  have amounts := amount.toNat_lt_size
  rw [UInt64.lt_iff_toNat_lt]
  rcases l.overflows_cases (.deposit amount) with ⟨wraps, once⟩ | ⟨fits, never⟩ <;>
    simp only [WalletEvent.putIn, UInt64.size] at * <;> omega

/-- Money is lost by wrapping around, and in no other way. -/
theorem balance_process (l : Ledger) (e : WalletEvent) :
    (l.process e).balance.toNat + l.paidOut e + UInt64.size * l.overflows e =
      l.balance.toNat + e.putIn := by
  cases e with
  | deposit amount =>
    have added := l.toNat_deposit amount
    simpa [paidOut, refuses, WalletEvent.putIn, WalletEvent.asked] using added
  | withdrawal amount =>
    have unwrapped : l.overflows (.withdrawal amount) = 0 := overflows_eq_zero rfl
    by_cases enough : amount ≤ l.balance
    · have less := UInt64.le_iff_toNat_le.mp enough
      have rest := UInt64.toNat_sub_of_le _ _ enough
      simp only [process, enough, if_true, paidOut, refuses, decide_true, Bool.not_true,
        Bool.false_eq_true, if_false, unwrapped, WalletEvent.putIn, WalletEvent.asked, rest]
      omega
    · simp [process, enough, paidOut, refuses, unwrapped, WalletEvent.putIn]
  | rescan height =>
    have unwrapped : l.overflows (.rescan height) = 0 := overflows_eq_zero rfl
    simp [process, paidOut, refuses, unwrapped, WalletEvent.putIn, WalletEvent.asked]

theorem rejected_process (l : Ledger) (e : WalletEvent) :
    (l.process e).rejected = l.rejected + .ofNat (l.refusals e) := by
  cases e with
  | withdrawal amount =>
    by_cases enough : amount ≤ l.balance <;> simp [process, enough, refusals, refuses]
  | _ => simp [process, refusals, refuses]

/-! ## What a sequence of events does -/

/-- A sum over events, each counted at the ledger that processes it. -/
def total (count : Ledger → WalletEvent → Nat) (events : List WalletEvent) : Nat :=
  (events.foldl (fun (now : Ledger × Nat) e => (now.1.process e, now.2 + count now.1 e)) ({}, 0)).2

theorem total_concat (count : Ledger → WalletEvent → Nat) (events : List WalletEvent)
    (e : WalletEvent) :
    total count (events ++ [e]) = total count events + count (ofEvents events) e := by
  have ledger : ∀ (events : List WalletEvent) (now : Ledger × Nat),
      (events.foldl (fun now e => (now.1.process e, now.2 + count now.1 e)) now).1 =
        events.foldl process now.1 := by
    intro events
    induction events with
    | nil => exact fun _ => rfl
    | cons e rest ih => exact fun now => ih _
  simp only [total, List.foldl_concat, ledger, ofEvents]

/-- What has been put in is there, or has been paid out, or is lost in steps of 2^64. -/
theorem balance_ofEvents (events : List WalletEvent) :
    (ofEvents events).balance.toNat + total paidOut events + UInt64.size * total overflows events =
      total (fun _ => WalletEvent.putIn) events := by
  induction events using List.reverseRecOn with
  | nil => rfl
  | append_singleton events e ih =>
    have step := balance_process (ofEvents events) e
    rw [ofEvents_concat, total_concat, total_concat, total_concat, ← ih, Nat.mul_add]
    omega

theorem rejected_ofEvents (events : List WalletEvent) :
    (ofEvents events).rejected = .ofNat (total refusals events) := by
  induction events using List.reverseRecOn with
  | nil => rfl
  | append_singleton events e ih =>
    rw [ofEvents_concat, total_concat, rejected_process, ih, UInt64.ofNat_add]

/-! ## Agreement with the account -/

/-- The ledger shows what is in the account. -/
structure Agrees (l : Ledger) (a : Account) : Prop where
  balance : l.balance.toNat = a.balance
  rejected : l.rejected.toNat = a.refused

theorem Agrees.fits (agrees : l.Agrees a) : a.Fits :=
  ⟨agrees.balance ▸ l.balance.toNat_lt_size, agrees.rejected ▸ l.rejected.toNat_lt_size⟩

/-- An event goes the same way in the ledger and in the account, unless it takes the account past
the limit. -/
theorem Agrees.process (agrees : l.Agrees a) (fits : (a.process e).Fits)
    (covered : a.withdrawn ≤ a.deposited) : (l.process e).Agrees (a.process e) := by
  obtain ⟨balance, rejected⟩ := agrees
  have moved := l.balance_process e
  have counted := congrArg UInt64.toNat (l.rejected_process e)
  rw [UInt64.toNat_add, rejected] at counted
  simp only [Account.Fits, UInt64.size] at fits moved
  rcases Nat.lt_or_ge a.balance e.asked with short | enough
  · have rejects : l.refuses e = true := by
      rw [refuses_iff]
      omega
    have nothing : e.putIn = 0 := by
      cases e with
      | deposit amount => cases rejects
      | _ => rfl
    have unwrapped : l.overflows e = 0 := overflows_eq_zero nothing
    have same : (a.process e).balance = a.balance := by rw [Account.process_of_lt short]; rfl
    have more : (a.process e).refused = a.refused + 1 := by rw [Account.process_of_lt short]
    simp only [paidOut, refusals, rejects, if_true, Bool.toNat_true] at moved counted
    refine ⟨by omega, ?_⟩
    rw [counted, more]
    exact Nat.mod_eq_of_lt (more ▸ fits.2)
  · have accepts : l.refuses e = false := by
      rw [← Bool.not_eq_true, refuses_iff]
      omega
    have funds := Account.balance_process enough covered
    have as_many := Account.refused_process enough
    simp only [paidOut, refusals, accepts, Bool.toNat_false, Bool.false_eq_true, if_false]
      at moved counted
    refine ⟨by omega, ?_⟩
    rw [counted, as_many]
    exact Nat.mod_eq_of_lt (as_many ▸ fits.2)

/-- The ledger shows the account after each event if and only if the account always fits. -/
theorem agrees_iff_fits (events : List WalletEvent) :
    (∀ first, first <+: events → (ofEvents first).Agrees (.ofEvents first)) ↔
      ∀ first, first <+: events → (Account.ofEvents first).Fits := by
  refine ⟨fun agrees first begins => (agrees first begins).fits, fun fits => ?_⟩
  induction events using List.reverseRecOn with
  | nil =>
    intro first begins
    rw [List.prefix_nil.mp begins]
    exact ⟨rfl, rfl⟩
  | append_singleton events e ih =>
    have before := ih fun first begins => fits first (begins.trans (List.prefix_append _ _))
    intro first begins
    rcases List.prefix_concat_iff.mp begins with rfl | begins
    · have last := fits _ (List.prefix_refl _)
      rw [Account.ofEvents, List.foldl_concat, ← Account.ofEvents] at last
      rw [ofEvents_concat, Account.ofEvents, List.foldl_concat, ← Account.ofEvents]
      exact (before events (List.prefix_refl _)).process last (Account.withdrawn_le events)
    · exact before first begins

end Ledger

namespace Subsystems

/-- In any run, the wallet's accounts are those of a ledger that has processed the deposits and
withdrawals dispatched by the wallet, one after the other. -/
theorem accounts_play (config : EventsConfig) (clock : ClockConfig) (tick : Duration)
    (canSpawn : Nat → Bool) (deeds : List Deed) :
    let s := (create config clock tick canSpawn).play deeds
    s.ledger.accounts =
      (Ledger.ofEvents ((dispatched (World.story s wallet)).filterMap Record.cash?)).accounts := by
  intro s
  rw [accounts_ledger, play_staffed.beginning fun _ _ => cash?_of_ne, Ledger.accounts_ofEvents]

/-- In any run, the wallet has shown its account in whole numbers after each of the deposits and
withdrawals that it has dispatched if and only if 64 bits have always been enough for the account.
Whether or not they have, what has been put in is the balance, what has been paid out and 2^64 for
every deposit that has wrapped the balance around; these are the deposits that have lowered it. -/
theorem ledger_exact_iff_fits (config : EventsConfig) (clock : ClockConfig) (tick : Duration)
    (canSpawn : Nat → Bool) (deeds : List Deed) :
    let s := (create config clock tick canSpawn).play deeds
    let events := (dispatched (World.story s wallet)).filterMap Record.cash?
    s.ledger.accounts = (Ledger.ofEvents events).accounts ∧
      ((∀ first, first <+: events → (Ledger.ofEvents first).Agrees (.ofEvents first)) ↔
        ∀ first, first <+: events → (Account.ofEvents first).Fits) ∧
      s.ledger.balance.toNat + Ledger.total Ledger.paidOut events +
          UInt64.size * Ledger.total Ledger.overflows events =
        Ledger.total (fun _ => WalletEvent.putIn) events ∧
      s.ledger.rejected = .ofNat (Ledger.total Ledger.refusals events) ∧
      ∀ first amount, first ++ [.deposit amount] <+: events →
        ((Ledger.ofEvents (first ++ [.deposit amount])).balance <
            (Ledger.ofEvents first).balance ↔
          UInt64.size ≤ (Ledger.ofEvents first).balance.toNat + amount.toNat) := by
  intro s events
  have same := accounts_play config clock tick canSpawn deeds
  obtain ⟨balance, rejected⟩ := Prod.mk.inj same
  refine ⟨same, Ledger.agrees_iff_fits events, ?_, ?_, fun first amount _ => ?_⟩
  · rw [balance]
    exact Ledger.balance_ofEvents events
  · rw [rejected]
    exact Ledger.rejected_ofEvents events
  · rw [Ledger.ofEvents_concat]
    exact Ledger.deposit_lowers_iff _ amount

/-- A deposit of one on top of the largest balance leaves nothing, and the next withdrawal is
refused. -/
theorem deposit_wraps_around :
    let s := (create {} {} (.ofMillis 1000)).play ([.start wallet, .start peers,
      .tellWallet .tail (.deposit 0xFFFFFFFFFFFFFFFF), .tellWallet .tail (.deposit 1),
      .tellWallet .tail (.withdrawal 1)] ++ List.replicate 10 (.worker wallet))
    let events : List WalletEvent := [.deposit 0xFFFFFFFFFFFFFFFF, .deposit 1, .withdrawal 1]
    (dispatched (World.story s wallet)).filterMap Record.cash? = events ∧
      s.ledger = ⟨0, 1, 0, 0⟩ ∧ Account.ofEvents events = ⟨UInt64.size, 1, 0⟩ ∧
      ¬ ∀ first, first <+: events → (Ledger.ofEvents first).Agrees (.ofEvents first) := by
  intro s events
  have told : (dispatched (World.story s wallet)).filterMap Record.cash? = events := by
    decide +kernel
  have exact_iff := (ledger_exact_iff_fits {} {} (.ofMillis 1000) fitsAddressSpace ([.start wallet,
    .start peers, .tellWallet .tail (.deposit 0xFFFFFFFFFFFFFFFF), .tellWallet .tail (.deposit 1),
    .tellWallet .tail (.withdrawal 1)] ++ List.replicate 10 (.worker wallet))).2.1
  refine ⟨told, by decide +kernel, by decide +kernel, fun agrees => ?_⟩
  rw [told] at exact_iff
  have fits := exact_iff.mp agrees [.deposit 0xFFFFFFFFFFFFFFFF, .deposit 1] ⟨[.withdrawal 1], rfl⟩
  exact absurd fits.1 (by decide +kernel)

end Subsystems
end EventEngine
