import EventEngine.Subsystems.Basic
import EventEngine.Time.Calendar

/-!
# The report of a run

At its end a run reports the metrics and the state of its subsystems, as log messages or as JSON.
-/
namespace EventEngine

/-- What a run has come to. -/
structure Summary where
  wallet : Metrics
  peers : Metrics
  ledger : Ledger
  roster : Roster
  /-- When the metrics were taken. -/
  takenAt : WallTime

namespace Summary

def ofSubsystems (s : Subsystems) : Summary :=
  let metrics (h : HandlerId) : Metrics := (s.handlers[h]?.map (·.metrics)).getD {}
  { wallet := metrics Subsystems.wallet
    peers := metrics Subsystems.peers
    ledger := s.ledger
    roster := s.roster
    takenAt := .ofInstant s.now }

def tenths (micros dispatches : Nat) : Nat :=
  let whole := 10 * micros / dispatches
  let rest := 10 * micros % dispatches
  if 2 * rest < dispatches || (2 * rest = dispatches && whole % 2 = 0) then whole else whole + 1

/-- The average time of a dispatch with one decimal place. -/
def averageText (m : Metrics) : String :=
  let n := if m.dispatches = 0 then 0 else tenths m.dispatchMicros.toNat m.dispatches.toNat
  s!"{n / 10}.{n % 10}us"

def handlerMessage (name : String) (m : Metrics) : String :=
  s!"{name}: {m.dispatched} dispatched, {m.timeouts} timeouts, {m.cleared} cleared, avg " ++
    averageText m

def stateMessage (s : Summary) : String :=
  s!"Wallet balance {s.ledger.balance} after {s.ledger.rescans} rescans and {s.ledger.ticks} " ++
    s!"ticks; {s.roster.connected.length} peers connected at height {s.roster.height}"

def messages (s : Summary) : List LogLine :=
  [⟨.info, handlerMessage Subsystems.walletName s.wallet⟩,
    ⟨.info, handlerMessage Subsystems.peersName s.peers⟩, ⟨.info, s.stateMessage⟩]

/-- A JSON object over several lines, each member with its value. -/
def object (indent : String) (members : List (String × String)) : String :=
  let line (m : String × String) : String := indent ++ "  \"" ++ m.1 ++ "\": " ++ m.2
  "\x7b\n" ++ ",\n".intercalate (members.map line) ++ "\n" ++ indent ++ "\x7d"

def metricsJson (indent : String) (m : Metrics) (takenAt : WallTime) : String :=
  object indent [("dispatch_time_us", s!"{m.dispatchMicros}"), ("events_cleared", s!"{m.cleared}"),
    ("events_dispatched", s!"{m.dispatched}"), ("events_enqueued", s!"{m.enqueued}"),
    ("events_enqueued_oob", s!"{m.enqueuedOob}"), ("starts", s!"{m.starts}"),
    ("stops", s!"{m.stops}"), ("timeouts_dispatched", s!"{m.timeouts}"),
    ("timestamp", "\"" ++ takenAt.text ++ "\"")]

def json (s : Summary) : String :=
  object "" [
    ("peers", object "  " [("connected", s!"{s.roster.connected.length}"),
      ("height", s!"{s.roster.height}"), ("metrics", metricsJson "    " s.peers s.takenAt)]),
    ("wallet", object "  " [("balance", s!"{s.ledger.balance}"),
      ("metrics", metricsJson "    " s.wallet s.takenAt), ("rejected", s!"{s.ledger.rejected}"),
      ("rescans", s!"{s.ledger.rescans}"), ("ticks", s!"{s.ledger.ticks}")])]

end Summary
end EventEngine
