/-!
# The roster of peers

What the peer manager keeps: the peers that are connected, in ascending order, and the greatest
height of a block that it was told of.
-/
namespace EventEngine

/-- What the peer manager is told. -/
inductive PeerEvent where
  | connected (peer : UInt32)
  | disconnected (peer : UInt32)
  | newBlock (height : UInt64)
  deriving DecidableEq, Repr

def PeerEvent.typeName : PeerEvent → String
  | connected _ => "Peer Connected"
  | disconnected _ => "Peer Disconnected"
  | newBlock _ => "Peer New Block"

def PeerEvent.typeNames : List String := ["Peer Connected", "Peer Disconnected", "Peer New Block"]

structure Roster where
  connected : List UInt32 := []
  height : UInt64 := 0
  deriving DecidableEq, Repr

namespace Roster

/-- Put a peer into its place, unless it is there. -/
def insertPeer (peer : UInt32) : List UInt32 → List UInt32
  | [] => [peer]
  | p :: rest =>
    if peer < p then peer :: p :: rest
    else if peer = p then p :: rest
    else p :: insertPeer peer rest

@[simp] theorem mem_insertPeer {q peer : UInt32} {peers : List UInt32} :
    q ∈ insertPeer peer peers ↔ q = peer ∨ q ∈ peers := by
  induction peers with
  | nil => simp [insertPeer]
  | cons p rest ih =>
    simp only [insertPeer]
    split
    · simp
    · split
      · next h => simp [h]
      · simp only [List.mem_cons, ih]
        constructor <;> rintro (h | h | h) <;> simp [h]

def process (r : Roster) : PeerEvent → Roster
  | .connected peer => { r with connected := insertPeer peer r.connected }
  | .disconnected peer => { r with connected := r.connected.filter (· != peer) }
  | .newBlock height => { r with height := max r.height height }

end Roster
end EventEngine
