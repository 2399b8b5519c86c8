import SLikeNet.Library.LinkedChains
import Mathlib.Algebra.Group.Nat.Defs
import Mathlib.Data.Fintype.Card

/-! `NetworkIDManager` and `NetworkIDObject`: the hash table of a manager, whose chains are threaded
through the objects. -/

namespace SLikeNet

open LinkedChains

/-- A pointer to a `NetworkIDObject`, of 64 bits and aligned to its `networkID`. -/
abbrev ObjectPointer := Fin (2 ^ 61)

/-- More steps than there are objects: a loop over the objects that takes them does not end. -/
def objectSteps : ℕ := 2 ^ 61 + 1

/-- `UNASSIGNED_NETWORK_ID` -/
def unassignedNetworkId : UInt64 := -1

structure NetworkIDObject (M : Type) where
  networkID : UInt64
  networkIDManager : Option M
  nextInstanceForNetworkIDManager : Option ObjectPointer

/-- As the constructor makes an object. -/
def NetworkIDObject.new {M : Type} : NetworkIDObject M := ⟨unassignedNetworkId, none, none⟩

structure NetworkIDManager where
  networkIdHash : ℕ → Option ObjectPointer
  startingOffset : UInt64

/-- `NETWORK_ID_MANAGER_HASH_LENGTH` is 1024. -/
def networkIDToHashIndex (networkId : UInt64) : ℕ := networkId.toNat % 1024

/-- The managers and the objects in memory. Where no object is, there is one as it is made. -/
structure NetworkIds (M : Type) where
  objects : ObjectPointer → NetworkIDObject M
  managers : M → NetworkIDManager

namespace NetworkIds

variable {M : Type} [DecidableEq M]

omit [DecidableEq M] in
def next (s : NetworkIds M) (p : ObjectPointer) : Option ObjectPointer :=
  (s.objects p).nextInstanceForNetworkIDManager

def setObject (s : NetworkIds M) (p : ObjectPointer) (object : NetworkIDObject M) : NetworkIds M :=
  { s with objects := Function.update s.objects p object }

def setNext (s : NetworkIds M) (p : ObjectPointer) (next : Option ObjectPointer) : NetworkIds M :=
  s.setObject p { s.objects p with nextInstanceForNetworkIDManager := next }

def setManager (s : NetworkIds M) (m : M) (manager : NetworkIDManager) : NetworkIds M :=
  { s with managers := Function.update s.managers m manager }

def setHash (s : NetworkIds M) (m : M) (hashIndex : ℕ) (head : Option ObjectPointer) :
    NetworkIds M :=
  s.setManager m { s.managers m with
    networkIdHash := Function.update (s.managers m).networkIdHash hashIndex head }

/-! ### `NetworkIDManager` -/

/-- `GET_BASE_OBJECT_FROM_ID`, if its loop ends -/
def getBaseObjectFromId (s : NetworkIds M) (m : M) (x : UInt64) : Option (Option ObjectPointer) :=
  follow s.next (fun nio => (s.objects nio).networkID = x) objectSteps
    ((s.managers m).networkIdHash (networkIDToHashIndex x))

/-- `while (GET_BASE_OBJECT_FROM_ID(++startingOffset));` -/
def nextFreeId (s : NetworkIds M) (m : M) : ℕ → UInt64 → Option UInt64
  | 0, _ => none
  | fuel + 1, startingOffset =>
    match s.getBaseObjectFromId m (startingOffset + 1) with
    | none => none
    | some none => some (startingOffset + 1)
    | some (some _) => nextFreeId s m fuel (startingOffset + 1)

/-- `GetNewNetworkID` -/
def getNewNetworkID (s : NetworkIds M) (m : M) : Option (UInt64 × NetworkIds M) := do
  let startingOffset ← s.nextFreeId m objectSteps (s.managers m).startingOffset
  let startingOffset ←
    if startingOffset = unassignedNetworkId then s.nextFreeId m objectSteps startingOffset
    else some startingOffset
  some (startingOffset, s.setManager m { s.managers m with startingOffset := startingOffset })

/-- `TrackNetworkIDObject` -/
def trackNetworkIDObject (s : NetworkIds M) (m : M) (p : ObjectPointer) : Option (NetworkIds M) :=
  let s := s.setNext p none
  let hashIndex := networkIDToHashIndex (s.objects p).networkID
  match (s.managers m).networkIdHash hashIndex with
  | none => some (s.setHash m hashIndex (some p))
  | some head => do
    let last ← follow s.next (fun nio => s.next nio = none) objectSteps (some head)
    match last with
    | none => some s
    | some nio => some (s.setNext nio (some p))

/-- `StopTrackingNetworkIDObject`; an object that is not found is an assertion that fails. -/
def stopTrackingNetworkIDObject (s : NetworkIds M) (m : M) (p : ObjectPointer) :
    Option (NetworkIds M) :=
  let hashIndex := networkIDToHashIndex (s.objects p).networkID
  match (s.managers m).networkIdHash hashIndex with
  | none => some s
  | some head =>
    if head = p then some (s.setHash m hashIndex (s.next p))
    else do
      let before ← follow s.next (fun nio => s.next nio = some p) objectSteps (some head)
      match before with
      | none => some s
      | some nio => some (s.setNext nio (s.next p))

/-! ### `NetworkIDObject` -/

/-- `if (networkIDManager) networkIDManager->StopTrackingNetworkIDObject(this);` -/
def stopTracking (s : NetworkIds M) (p : ObjectPointer) : Option (NetworkIds M) :=
  match (s.objects p).networkIDManager with
  | none => some s
  | some m => s.stopTrackingNetworkIDObject m p

/-- `if (networkIDManager) networkIDManager->TrackNetworkIDObject(this);` -/
def track (s : NetworkIds M) (p : ObjectPointer) : Option (NetworkIds M) :=
  match (s.objects p).networkIDManager with
  | none => some s
  | some m => s.trackNetworkIDObject m p

/-- `SetNetworkIDManager` -/
def setNetworkIDManager (s : NetworkIds M) (p : ObjectPointer) (manager : Option M) :
    Option (NetworkIds M) :=
  if manager = (s.objects p).networkIDManager then some s
  else do
    let s ← s.stopTracking p
    let s := s.setObject p { s.objects p with networkIDManager := manager }
    match manager with
    | none => some (s.setObject p { s.objects p with networkID := unassignedNetworkId })
    | some m =>
      let s ←
        if (s.objects p).networkID = unassignedNetworkId then do
          let (networkID, s) ← s.getNewNetworkID m
          some (s.setObject p { s.objects p with networkID := networkID })
        else some s
      s.trackNetworkIDObject m p

/-- `SetNetworkID` -/
def setNetworkID (s : NetworkIds M) (p : ObjectPointer) (id : UInt64) : Option (NetworkIds M) :=
  if (s.objects p).networkID = id then some s
  else if id = unassignedNetworkId then s.setNetworkIDManager p none
  else do
    let s ← s.stopTracking p
    (s.setObject p { s.objects p with networkID := id }).track p

/-- The destructor. -/
def destroy (s : NetworkIds M) (p : ObjectPointer) : Option (NetworkIds M) := do
  let s ← s.stopTracking p
  some (s.setObject p .new)

/-! ### Runs -/

inductive Operation (M : Type)
  | setNetworkIDManager (p : ObjectPointer) (manager : Option M)
  | setNetworkID (p : ObjectPointer) (id : UInt64)
  | destroy (p : ObjectPointer)
  | getNewNetworkID (m : M)

def perform (s : NetworkIds M) : Operation M → Option (NetworkIds M)
  | .setNetworkIDManager p manager => s.setNetworkIDManager p manager
  | .setNetworkID p id => s.setNetworkID p id
  | .destroy p => s.destroy p
  | .getNewNetworkID m => (s.getNewNetworkID m).map Prod.snd

/-- Another object of the manager has the id. -/
def InUse (s : NetworkIds M) (m : M) (p : ObjectPointer) (id : UInt64) : Prop :=
  ∃ q, q ≠ p ∧ (s.objects q).networkIDManager = some m ∧ (s.objects q).networkID = id

/-- What the caller promises: a new id is not in use in the object's manager, and an id that is
kept not in the new manager. -/
def Allowed (s : NetworkIds M) : Operation M → Prop
  | .setNetworkIDManager p manager => ∀ m, manager = some m →
    (s.objects p).networkID ≠ unassignedNetworkId → ¬s.InUse m p (s.objects p).networkID
  | .setNetworkID p id => ∀ m, (s.objects p).networkIDManager = some m → ¬s.InUse m p id
  | .destroy _ => True
  | .getNewNetworkID _ => True

/-- The managers have no objects yet, and start at any offset. -/
def initial (startingOffset : M → UInt64) : NetworkIds M :=
  ⟨fun _ => .new, fun m => ⟨fun _ => none, startingOffset m⟩⟩

inductive Reachable : NetworkIds M → Prop
  | initial (startingOffset : M → UInt64) : Reachable (initial startingOffset)
  | perform {s s' : NetworkIds M} {op : Operation M} : Reachable s → s.Allowed op →
    s.perform op = some s' → Reachable s'

/-- The lookup returns the object of a manager with an id, and new ids are not in use. -/
structure Exact (s : NetworkIds M) : Prop where
  lookup : ∀ m x, ∃ found, s.getBaseObjectFromId m x = some found ∧ ∀ p, found = some p ↔
    (s.objects p).networkIDManager = some m ∧ (s.objects p).networkID = x
  assigned : ∀ p m, (s.objects p).networkIDManager = some m →
    (s.objects p).networkID ≠ unassignedNetworkId
  new : ∀ m, ∃ id s', s.getNewNetworkID m = some (id, s') ∧ id ≠ unassignedNetworkId ∧
    ∀ p, (s.objects p).networkIDManager = some m → (s.objects p).networkID ≠ id
  returns : ∀ op, s.Allowed op → ∃ s', s.perform op = some s'

end NetworkIds

end SLikeNet
