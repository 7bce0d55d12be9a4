import EventEngine.Engine.Command
import EventEngine.Subsystems.Ledger
import EventEngine.Subsystems.Roster

/-!
# The wallet and the peer subsystem

Two handlers share a dispatch lock, so that neither sees the other's state while it changes. The
peer manager tells the wallet manager of every new block, as a rescan that goes before other work;
the wallet manager ticks periodically. What either of them has become follows from its dispatches.
-/
namespace EventEngine

/-- What an event of the subsystems carries. -/
inductive Payload where
  | wallet (e : WalletEvent)
  | peers (e : PeerEvent)
  /-- The context of the wallet's timeout. -/
  | tick
  deriving DecidableEq, Repr

/-- A world with the two handlers. -/
abbrev Subsystems := World Payload

/-- What is asked of the subsystems. -/
inductive SubsystemRequest where
  | tellWallet (place : Place) (e : WalletEvent)
  | tellPeers (place : Place) (e : PeerEvent)
  | startAll
  | stopAll
  | start (h : HandlerId)
  | stop (h : HandlerId)
  | clear (h : HandlerId)
  | describe
  | advance (d : Duration)

namespace Subsystems

def wallet : HandlerId := 0

def peers : HandlerId := 1

/-- The dispatch lock of both. -/
def lock : LockId := 0

def walletName : String := "wallet manager"

def peersName : String := "peer manager"

def walletSignal (place : Place) (e : WalletEvent) : Action Payload :=
  .signal wallet place e.typeName (.wallet e) []

/-- What the dispatcher of an event of the peers does besides changing the roster. -/
def peerScript : PeerEvent → List (Action Payload)
  | .newBlock height => [walletSignal .head (.rescan height)]
  | _ => []

def peerSignal (place : Place) (e : PeerEvent) : Action Payload :=
  .signal peers place e.typeName (.peers e) (peerScript e)

/-- A handler of the subsystems, stopped. -/
def handler (config : EventsConfig) (name : String) (types : List String)
    (canSpawn : Nat → Bool := fitsAddressSpace) : Handler Payload :=
  { config := config.handlerOrDefault name
    canSpawn
    types := .ofList (types.map fun t => ⟨t, t⟩)
    lock := some lock }

/-- Both handlers, stopped, on a clock of given settings, where the platform grants the stack sizes
of which `canSpawn` holds. -/
def create (config : EventsConfig) (clock : ClockConfig) (tick : Duration)
    (canSpawn : Nat → Bool := fitsAddressSpace) : Subsystems :=
  let w : Subsystems := {
    clocks := [{ config := clock, canSpawn }]
    locks := [none]
    handlers := [handler config walletName WalletEvent.typeNames canSpawn,
      handler config peersName PeerEvent.typeNames canSpawn] }
  (w.perform .outside (.setTimeout wallet tick .tick [])).1

/-! ## State -/

/-- What an occurrence makes of the ledger. -/
def observeWallet (o : Occurrence Payload) (l : Ledger) : Ledger :=
  match o with
  | .began _ ⟨_, .event _ ⟨_, .wallet e, _⟩⟩ => l.process e
  | .began _ ⟨_, .timeout _ _⟩ => l.tick
  | _ => l

/-- What an occurrence makes of the roster. -/
def observePeers (o : Occurrence Payload) (r : Roster) : Roster :=
  match o with
  | .began _ ⟨_, .event _ ⟨_, .peers e, _⟩⟩ => r.process e
  | _ => r

/-- The wallet's state after all that has happened. -/
def ledger (s : Subsystems) : Ledger := s.history.foldr observeWallet {}

/-- The peers' state after all that has happened. -/
def roster (s : Subsystems) : Roster := s.history.foldr observePeers {}

def alarmCount (s : Subsystems) : Nat := (s.clock sharedClock).alarmCount

/-! ## Requests -/

/-- Start the wallet manager and then the peer manager; a failure of the first is the answer. -/
def startAll (patience : Nat) (s : Subsystems) : Subsystems × Reply :=
  match s.call patience (.start wallet) with
  | (s, .done) => s.call patience (.start peers)
  | (s, reply) => (s, reply)

/-- Stop the peer manager and then the wallet manager, so that no rescan comes after the stop. -/
def stopAll (patience : Nat) (s : Subsystems) : Subsystems × Reply :=
  (s.call patience (.stop peers)).1.call patience (.stop wallet)

/-- Destroy the peer manager and then the wallet manager. -/
def destroyAll (patience : Nat) (s : Subsystems) : Subsystems :=
  ((s.call patience (.destroy peers)).1.call patience (.destroy wallet)).1

def text (s : Subsystems) : String :=
  " | ".intercalate (s.handlers.map Handler.text)

/-- Carry out a request, without letting the threads run afterwards. -/
def carryOut (patience : Nat) (s : Subsystems) : SubsystemRequest → Subsystems × Reply
  | .tellWallet place e => s.call patience (walletSignal place e)
  | .tellPeers place e => s.call patience (peerSignal place e)
  | .startAll => s.startAll patience
  | .stopAll => s.stopAll patience
  | .start h => s.call patience (.start h)
  | .stop h => s.call patience (.stop h)
  | .clear h => s.call patience (.clear h)
  | .describe => (s, .text s.text)
  | .advance d => s.call patience (.advance d)

/-- Carry out requests one after another, without letting the threads run in between. -/
def carryOutAll (patience : Nat) (s : Subsystems) : List SubsystemRequest → Subsystems × List Reply
  | [] => (s, [])
  | request :: rest =>
    let (s, reply) := s.carryOut patience request
    let (s, replies) := carryOutAll patience s rest
    (s, reply :: replies)

/-- Carry out a request, and let the threads run until none can move. -/
def step (patience : Nat) (s : Subsystems) (request : SubsystemRequest) : Subsystems × Reply :=
  let (s, reply) := s.carryOut patience request
  (s.settle patience, reply)

/-- Carry out requests one after another, and only then let the threads run. -/
def batch (patience : Nat) (s : Subsystems) (requests : List SubsystemRequest) :
    Subsystems × Reply :=
  let (s, replies) := s.carryOutAll patience requests
  (s.settle patience, .all replies)

end Subsystems
end EventEngine
