/-!
# The wallet's ledger

What the wallet manager keeps: a balance that no withdrawal can overdraw, and counts of refused
withdrawals, of rescans and of ticks. All numbers have 64 bits and wrap around.
-/
namespace EventEngine

/-- What the wallet manager is told. -/
inductive WalletEvent where
  | deposit (amount : UInt64)
  | withdrawal (amount : UInt64)
  | rescan (fromHeight : UInt64)
  deriving DecidableEq, Repr

def WalletEvent.typeName : WalletEvent → String
  | deposit _ => "Wallet Deposit"
  | withdrawal _ => "Wallet Withdrawal"
  | rescan _ => "Wallet Rescan"

/-- The names of the types, in order of registration. -/
def WalletEvent.typeNames : List String := ["Wallet Deposit", "Wallet Withdrawal", "Wallet Rescan"]

structure Ledger where
  balance : UInt64 := 0
  /-- Withdrawals that were refused. -/
  rejected : UInt64 := 0
  rescans : UInt64 := 0
  ticks : UInt64 := 0
  deriving DecidableEq, Repr

namespace Ledger

/-- Process an event. A withdrawal of more than the balance is refused. -/
def process (l : Ledger) : WalletEvent → Ledger
  | .deposit amount => { l with balance := l.balance + amount }
  | .withdrawal amount =>
    if amount ≤ l.balance then { l with balance := l.balance - amount }
    else { l with rejected := l.rejected + 1 }
  | .rescan _ => { l with rescans := l.rescans + 1 }

def tick (l : Ledger) : Ledger := { l with ticks := l.ticks + 1 }

def refuses (l : Ledger) : WalletEvent → Bool
  | .withdrawal amount => !(amount ≤ l.balance)
  | _ => false

end Ledger
end EventEngine
