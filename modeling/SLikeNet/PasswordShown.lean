import SLikeNet.EstablishedConnection

/-! Application data is for systems that have shown the password. A system that has shown a wrong
one is only marked for disconnection, and what it sends until its slot is closed is read in the
branch for systems that are connected. -/

namespace SLikeNet

open RemoteSystems (Inv)

namespace RakPeer

variable {cfg : PeerConfig}

/-! ### The packets of one message -/

instance (data password : List UInt8) : Decidable (CarriesPassword data password) :=
  inferInstanceAs (Decidable (data.head? = some MessageID.connectionRequest ∧ 17 ≤ data.length ∧
    data.drop 18 = password))

/-- The input is a message of the system in the slot that carries the incoming password. -/
def showsPassword (cfg : PeerConfig) (i : ℕ) : PeerInput → Bool
  | .message j data _ => decide (j = i ∧ CarriesPassword data cfg.incomingPassword)
  | _ => false

/-- A peer, and which slots have shown the password since they were assigned. -/
structure Watched where
  peer : RakPeer
  shown : ℕ → Bool

namespace Watched

def initial : Watched := ⟨.initial, fun _ => false⟩

def step (cfg : PeerConfig) (w : Watched) (input : PeerInput) : Watched where
  peer := w.peer.step cfg input
  shown i := (w.peer.slot i).isActive && (w.shown i || showsPassword cfg i input)

end Watched

end RakPeer

end SLikeNet
