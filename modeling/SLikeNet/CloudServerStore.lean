import Mathlib.Data.Finmap
import Mathlib.Data.Finset.Sort
import Mathlib.Algebra.BigOperators.Group.Finset.Basic

/-! The keys that a `CloudServer` holds for its clients: what `Post`, `Release`, `Get`,
`Unsubscribe` and a closed connection do to the uploads and to the subscriptions. -/

namespace SLikeNet

/-- `data` is what `dataPtr` and `dataLengthBytes` say. -/
structure CloudData (Guid : Type) where
  data : List UInt8
  isUploaded : Bool
  specificSubscribers : Finset Guid

/-- An `OrderedList` is the finite map from what it is ordered by. -/
structure CloudDataList (Guid : Type) where
  uploaderCount : ℕ
  subscriberCount : ℕ
  keyData : Finmap fun _ : Guid => CloudData Guid
  nonSpecificSubscribers : Finset Guid

/-- `subscribedKeys` has the list `specificSystemsSubscribedTo` of each `KeySubscriberID`. -/
structure RemoteCloudClient (Key Guid : Type) where
  uploadedKeys : Finset Key
  subscribedKeys : Finmap fun _ : Key => Finset Guid
  uploadedBytes : ℕ

/-- `ID_CLOUD_SUBSCRIPTION_NOTIFICATION`. -/
structure CloudNotification (Key Guid : Type) where
  subscriber : Guid
  key : Key
  uploader : Guid
  wasUpdated : Bool
deriving DecidableEq

/-- What a `CloudServer` tells all of its `remoteServers`. -/
inductive ServerCommand (Key : Type)
  | addUploadedKey (key : Key)
  | addSubscribedKey (key : Key)
  | removeUploadedKey (key : Key)
  | removeSubscribedKey (key : Key)
deriving DecidableEq

/-- `notifications` and `commands` are what the server has sent for the present message. -/
structure CloudServer (Key Guid : Type) where
  dataRepository : Key → Option (CloudDataList Guid)
  remoteSystems : Guid → Option (RemoteCloudClient Key Guid)
  notifications : Multiset (CloudNotification Key Guid)
  commands : List (ServerCommand Key)

/-- The messages of a `CloudClient`, and the end of its connection. -/
inductive CloudMessage (Key Guid : Type)
  | post (guid : Guid) (key : Key) (data : List UInt8)
  | release (guid : Guid) (keys : List Key)
  | get (guid : Guid) (keys : List Key) (specificSystems : List Guid) (subscribeToResults : Bool)
  | unsubscribe (guid : Guid) (keys : List Key) (specificSystems : List Guid)
  | closedConnection (guid : Guid)

variable {Key Guid : Type} [LinearOrder Key] [LinearOrder Guid]

/-! ### One key -/

namespace CloudData

def IsUnused (d : CloudData Guid) : Prop := d.isUploaded = false ∧ d.specificSubscribers = ∅

instance (d : CloudData Guid) : Decidable d.IsUnused := inferInstanceAs (Decidable (_ ∧ _))

def clear (d : CloudData Guid) : CloudData Guid := { d with data := [], isUploaded := false }

/-- What a subscription makes for a system that has no entry. -/
def allocated : CloudData Guid := ⟨[], false, ∅⟩

end CloudData

namespace CloudDataList

def IsUnused (l : CloudDataList Guid) : Prop :=
  l.keyData.keys = ∅ ∧ l.nonSpecificSubscribers = ∅

instance (l : CloudDataList Guid) : Decidable l.IsUnused := inferInstanceAs (Decidable (_ ∧ _))

def IsNotUploaded (l : CloudDataList Guid) : Prop := l.uploaderCount = 0

instance (l : CloudDataList Guid) : Decidable l.IsNotUploaded := inferInstanceAs (Decidable (_ = _))

def allocated : CloudDataList Guid := ⟨0, 0, ∅, ∅⟩

/-- An unused list is deleted. -/
def kept (l : CloudDataList Guid) : Option (CloudDataList Guid) :=
  if l.IsUnused then none else some l

def setData (guid : Guid) (d : CloudData Guid) (l : CloudDataList Guid) : CloudDataList Guid :=
  { l with keyData := l.keyData.insert guid d }

def removeData (guid : Guid) (l : CloudDataList Guid) : CloudDataList Guid :=
  { l with keyData := l.keyData.erase guid }

end CloudDataList

namespace CloudServer

open CloudDataList

/-- The counters are unsigned: there is no result where the difference is not one. -/
def subtract (n m : ℕ) : Option ℕ := if m ≤ n then some (n - m) else none

def removeSpecificSubscriber (specificSubscriber guid : Guid) (l : CloudDataList Guid) :
    Option (CloudDataList Guid) :=
  match l.keyData.lookup specificSubscriber with
  | none => some l
  | some d =>
    if guid ∈ d.specificSubscribers then
      (subtract l.subscriberCount 1).map fun count =>
        let l := { l with subscriberCount := count }
        let d := { d with specificSubscribers := d.specificSubscribers.erase guid }
        if d.IsUnused then l.removeData specificSubscriber else l.setData specificSubscriber d
    else some l

def removeSpecificSubscribers (guid : Guid) :
    List Guid → CloudDataList Guid → Option (CloudDataList Guid)
  | [], l => some l
  | system :: systems, l =>
    (removeSpecificSubscriber system guid l).bind (removeSpecificSubscribers guid systems)

/-- The loop of `UnsubscribeFromKey` over the systems of the message, with
`specificSystemsSubscribedTo`. -/
def unsubscribeLoop (guid : Guid) : List Guid → Finset Guid → CloudDataList Guid →
    Option (Finset Guid × CloudDataList Guid)
  | [], subscribedTo, l => some (subscribedTo, l)
  | system :: systems, subscribedTo, l =>
    if system ∈ subscribedTo then
      (removeSpecificSubscriber system guid l).bind
        (unsubscribeLoop guid systems (subscribedTo.erase system))
    else unsubscribeLoop guid systems subscribedTo l

/-- `RemoveSubscriber`, and the specific subscriptions where it returns false. -/
def removeSubscriptions (guid : Guid) (subscribedTo : Finset Guid) (l : CloudDataList Guid) :
    Option (CloudDataList Guid) :=
  if guid ∈ l.nonSpecificSubscribers then
    (subtract l.subscriberCount 1).map fun count =>
      { l with
        subscriberCount := count
        nonSpecificSubscribers := l.nonSpecificSubscribers.erase guid }
  else removeSpecificSubscribers guid (subscribedTo.sort (· ≤ ·)) l

/-- The entry that a specific subscription of `guid` adds itself to. -/
def addSpecificSubscriber (guid : Guid) (l : CloudDataList Guid) (specificSystem : Guid) :
    CloudDataList Guid :=
  let d := (l.keyData.lookup specificSystem).getD .allocated
  { l with subscriberCount := l.subscriberCount + 1 }.setData specificSystem
    { d with specificSubscribers := insert guid d.specificSubscribers }

/-- In the general case the source looks through `specificSystemsSubscribedTo` of the new record
as well, which is empty there. -/
def addSubscriptions (guid : Guid) (specificSystems : List Guid) (l : CloudDataList Guid) :
    CloudDataList Guid :=
  if specificSystems = [] then
    { l with
      subscriberCount := l.subscriberCount + 1
      nonSpecificSubscribers := insert guid l.nonSpecificSubscribers }
  else specificSystems.foldl (addSpecificSubscriber guid) l

/-- The loop of `OnClosedConnection` over `specificSystemsSubscribedTo`. -/
def closeSpecific (guid : Guid) :
    List Guid → CloudDataList Guid → Option (CloudDataList Guid)
  | [], l => some l
  | system :: systems, l =>
    match l.keyData.lookup system with
    | none => closeSpecific guid systems l
    | some d =>
      (subtract l.subscriberCount 1).bind fun count =>
        closeSpecific guid systems ({ l with subscriberCount := count }.setData system
          { d with specificSubscribers := d.specificSubscribers.erase guid })

def closeSubscription (guid : Guid) (subscribedTo : Finset Guid) (l : CloudDataList Guid) :
    Option (CloudDataList Guid) :=
  if subscribedTo = ∅ then
    (subtract l.subscriberCount 1).map fun count =>
      { l with
        subscriberCount := count
        nonSpecificSubscribers := l.nonSpecificSubscribers.erase guid }
  else closeSpecific guid (subscribedTo.sort (· ≤ ·)) l

/-! ### The server -/

def initial : CloudServer Key Guid := ⟨fun _ => none, fun _ => none, 0, []⟩

def setList (key : Key) (l : Option (CloudDataList Guid)) (s : CloudServer Key Guid) :
    CloudServer Key Guid :=
  { s with dataRepository := Function.update s.dataRepository key l }

def setClient (guid : Guid) (client : Option (RemoteCloudClient Key Guid))
    (s : CloudServer Key Guid) : CloudServer Key Guid :=
  { s with remoteSystems := Function.update s.remoteSystems guid client }

def getOrAllocateCloudDataList (key : Key) (s : CloudServer Key Guid) : CloudDataList Guid :=
  (s.dataRepository key).getD .allocated

def send (commands : List (ServerCommand Key)) (s : CloudServer Key Guid) :
    CloudServer Key Guid :=
  { s with commands := s.commands ++ commands }

/-- `NotifyClientSubscribersOfDataChange`, for both lists of subscribers. -/
def notifyClientSubscribersOfDataChange (guid : Guid) (key : Key) (l : CloudDataList Guid)
    (d : CloudData Guid) (wasUpdated : Bool) (s : CloudServer Key Guid) : CloudServer Key Guid :=
  { s with
    notifications := s.notifications +
      (d.specificSubscribers.val + l.nonSpecificSubscribers.val).map
        fun subscriber => ⟨subscriber, key, guid, wasUpdated⟩ }

/-- The client of the message, which is new where `remoteSystems` does not have it. -/
def client (guid : Guid) (s : CloudServer Key Guid) : RemoteCloudClient Key Guid :=
  (s.remoteSystems guid).getD ⟨∅, ∅, 0⟩

def IsUnused (c : RemoteCloudClient Key Guid) : Prop :=
  c.uploadedKeys = ∅ ∧ c.subscribedKeys.keys = ∅

instance (c : RemoteCloudClient Key Guid) : Decidable (IsUnused c) :=
  inferInstanceAs (Decidable (_ ∧ _))

def onPostRequest (guid : Guid) (key : Key) (data : List UInt8) (s : CloudServer Key Guid) :
    Option (CloudServer Key Guid) :=
  let c := s.client guid
  let l := s.getOrAllocateCloudDataList key
  let old := l.keyData.lookup guid
  -- An entry that a subscription has made keeps its flag.
  let d := old.elim ⟨data, true, ∅⟩ fun d => { d with data := data }
  (subtract c.uploadedBytes (old.elim 0 fun d => d.data.length)).map fun uploadedBytes =>
    ((s.setClient guid (some { c with
        uploadedKeys := insert key c.uploadedKeys
        uploadedBytes := uploadedBytes + data.length })).setList key
      (some ({ l with uploaderCount := l.uploaderCount + 1 }.setData guid d))).send
      (if 0 < l.uploaderCount then [] else [.addUploadedKey key])
      |>.notifyClientSubscribersOfDataChange guid key l d true

/-- What `OnReleaseRequest` and `OnClosedConnection` do to the entry `d` of the system; the latter
tells of the key once more where the list is deleted. -/
def clearData (closed : Bool) (guid : Guid) (key : Key) (d : CloudData Guid)
    (l : CloudDataList Guid) (s : CloudServer Key Guid) : CloudServer Key Guid :=
  let s := s.notifyClientSubscribersOfDataChange guid key l d false
  if d.clear.IsUnused then
    let l := l.removeData guid
    let s := if l.IsNotUploaded then s.send [.removeUploadedKey key] else s
    let s := if closed ∧ l.IsUnused then s.send [.removeUploadedKey key] else s
    s.setList key l.kept
  else s.setList key (some (l.setData guid d.clear))

def releaseKey (guid : Guid) (key : Key) (c : RemoteCloudClient Key Guid)
    (s : CloudServer Key Guid) : Option (CloudServer Key Guid) :=
  (s.dataRepository key).bind fun l =>
  (l.keyData.lookup guid).bind fun d =>
  (subtract c.uploadedBytes d.data.length).bind fun uploadedBytes =>
  (subtract l.uploaderCount 1).map fun uploaderCount =>
    let c := { c with uploadedKeys := c.uploadedKeys.erase key, uploadedBytes := uploadedBytes }
    (s.clearData false guid key d { l with uploaderCount := uploaderCount }).setClient guid
      (if IsUnused c then none else some c)

/-- The loop ends with the client. -/
def onReleaseRequest (guid : Guid) : List Key → CloudServer Key Guid →
    Option (CloudServer Key Guid)
  | [], s => some s
  | key :: keys, s =>
    match s.remoteSystems guid with
    | none => some s
    | some c =>
      if key ∈ c.uploadedKeys then
        (s.releaseKey guid key c).bind (onReleaseRequest guid keys)
      else onReleaseRequest guid keys s

def unsubscribeFromKey (guid : Guid) (key : Key) (specificSystems : List Guid)
    (c : RemoteCloudClient Key Guid) (subscribedTo : Finset Guid) (s : CloudServer Key Guid) :
    Option (CloudServer Key Guid) :=
  if subscribedTo = ∅ ∧ specificSystems ≠ [] then some s
  else match s.dataRepository key with
    | none => some s
    | some l =>
      let result :=
        if specificSystems = [] then (removeSubscriptions guid subscribedTo l).map ((∅, ·))
        else unsubscribeLoop guid specificSystems subscribedTo l
      result.map fun (subscribedTo, l) =>
        let c := { c with subscribedKeys :=
          if subscribedTo = ∅ then c.subscribedKeys.erase key
          else c.subscribedKeys.insert key subscribedTo }
        ((s.setClient guid (some c)).send
          (if l.subscriberCount = 0 then [.removeSubscribedKey key] else [])).setList key l.kept

/-- The present subscription of a system to a key, as its own list has it. -/
def subscribedTo (s : CloudServer Key Guid) (key : Key) (guid : Guid) : Option (Finset Guid) :=
  (s.client guid).subscribedKeys.lookup key

/-- A new subscription takes the place of the one before it. -/
def replaceSubscription (guid : Guid) (key : Key) (s : CloudServer Key Guid) :
    Option (CloudServer Key Guid) :=
  match s.subscribedTo key guid with
  | none => some s
  | some systems => s.unsubscribeFromKey guid key [] (s.client guid) systems

def addSubscription (guid : Guid) (specificSystems : List Guid) (key : Key)
    (s : CloudServer Key Guid) : CloudServer Key Guid :=
  let c := s.client guid
  let l := s.getOrAllocateCloudDataList key
  ((s.setClient guid (some { c with
      subscribedKeys := c.subscribedKeys.insert key specificSystems.toFinset })).send
    (if l.subscriberCount = 0 then [.addSubscribedKey key] else [])).setList key
      (some (addSubscriptions guid specificSystems l))

def subscribeLoop (guid : Guid) (specificSystems : List Guid) :
    List Key → CloudServer Key Guid → Option (CloudServer Key Guid)
  | [], s => some s
  | key :: keys, s => (s.replaceSubscription guid key).bind fun s =>
    subscribeLoop guid specificSystems keys (s.addSubscription guid specificSystems key)

/-- The subscriptions of `OnGetRequest`. -/
def onGetRequest (guid : Guid) (keys : List Key) (specificSystems : List Guid)
    (s : CloudServer Key Guid) : Option (CloudServer Key Guid) :=
  (subscribeLoop guid specificSystems keys (s.setClient guid (some (s.client guid)))).map fun s =>
    if (s.client guid).subscribedKeys.keys = ∅ then s.setClient guid none else s

def unsubscribeKeys (guid : Guid) (specificSystems : List Guid) :
    List Key → CloudServer Key Guid → Option (CloudServer Key Guid)
  | [], s => some s
  | key :: keys, s =>
    match s.dataRepository key, s.subscribedTo key guid with
    | some _, some systems =>
      (s.unsubscribeFromKey guid key specificSystems (s.client guid) systems).bind
        (unsubscribeKeys guid specificSystems keys)
    | _, _ => unsubscribeKeys guid specificSystems keys s

def onUnsubscribeRequest (guid : Guid) (keys : List Key) (specificSystems : List Guid)
    (s : CloudServer Key Guid) : Option (CloudServer Key Guid) :=
  match s.remoteSystems guid with
  | none => some s
  | some _ => (unsubscribeKeys guid specificSystems keys s).map fun s =>
    if IsUnused (s.client guid) then s.setClient guid none else s

def closeUploads (guid : Guid) : List Key → CloudServer Key Guid → Option (CloudServer Key Guid)
  | [], s => some s
  | key :: keys, s =>
    match s.dataRepository key with
    | none => closeUploads guid keys s
    | some l => match l.keyData.lookup guid with
      | none => closeUploads guid keys s
      | some d => (subtract l.uploaderCount 1).bind fun uploaderCount =>
        closeUploads guid keys
          (s.clearData true guid key d { l with uploaderCount := uploaderCount })

def closeSubscriptions (guid : Guid) (c : RemoteCloudClient Key Guid) :
    List Key → CloudServer Key Guid → Option (CloudServer Key Guid)
  | [], s => some s
  | key :: keys, s =>
    match s.dataRepository key, c.subscribedKeys.lookup key with
    | some l, some systems => (closeSubscription guid systems l).bind fun l =>
      closeSubscriptions guid c keys (s.setList key (some l))
    | _, _ => closeSubscriptions guid c keys s

def onClosedConnection (guid : Guid) (s : CloudServer Key Guid) : Option (CloudServer Key Guid) :=
  match s.remoteSystems guid with
  | none => some s
  | some c => (closeUploads guid (c.uploadedKeys.sort (· ≤ ·)) s).bind fun s =>
    (closeSubscriptions guid c (c.subscribedKeys.keys.sort (· ≤ ·)) s).map (·.setClient guid none)

/-- What the server does with a message; there is no result where the source takes an entry that is
missing or wraps one of its counters. -/
def receive (s : CloudServer Key Guid) : CloudMessage Key Guid → Option (CloudServer Key Guid)
  | .post guid key data => s.onPostRequest guid key data
  | .release guid keys => s.onReleaseRequest guid keys
  | .get guid keys systems subscribeToResults =>
    if subscribeToResults then s.onGetRequest guid keys systems else some s
  | .unsubscribe guid keys systems => s.onUnsubscribeRequest guid keys systems
  | .closedConnection guid => s.onClosedConnection guid

/-- The systems in the order of an `OrderedList`. -/
def inOrder (systems : Finset Guid) : List Guid := systems.sort (· ≤ ·)

/-- The rows of one key, each with the system of its entry. -/
def rows (key : Key) (specificSystems : List Guid) (s : CloudServer Key Guid) :
    List (Guid × CloudData Guid) :=
  match s.dataRepository key with
  | none => []
  | some l =>
    if 0 < l.uploaderCount then
      (if specificSystems ≠ [] then specificSystems else inOrder l.keyData.keys).filterMap
        fun system => (l.keyData.lookup system).map (system, ·)
    else []

end CloudServer

end SLikeNet
