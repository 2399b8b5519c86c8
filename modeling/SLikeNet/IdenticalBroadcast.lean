import SLikeNet.Library.GuardedRun
import Mathlib.Data.Fin.Basic

/-! A replica of `ReplicaManager3` that is serialized alike to all connections: what has been sent
to each of them after a serialization tick. -/

namespace SLikeNet

/-- `RM3_NUM_OUTPUT_BITSTREAM_CHANNELS` of them. -/
abbrev OutputChannel := Fin 16

/-- What `Serialize` of the replica returns, always the same. -/
inductive RM3SerializationResult
  | broadcastIdentically
  | serializedUniquely
deriving DecidableEq

/-- `Serialize` of a replica that writes something to every channel. -/
structure ReplicaSerializer (State : Type) where
  serialize : State → OutputChannel → List Bool
  nonempty : ∀ state z, serialize state z ≠ []

/-- `lastSentSerialization` and `forceSendUntilNextUpdate` of the replica. -/
structure SentReplica where
  bitStream : OutputChannel → List Bool
  indicesToSend : OutputChannel → Bool
  forceSendUntilNextUpdate : Bool

/-- A validated connection with the replica. `lsr` is there once `constructedReplicaList` has the
replica, and is `lastSerializationResultBS` with nothing in it before `AllocBS`. `lastSent` is what
was last sent on each channel, and `isNew` that the replica was constructed after the last tick;
these two are not in the source. -/
structure BroadcastConnection where
  guid : ℕ
  lsr : Option (OutputChannel → List Bool)
  lastSent : OutputChannel → Option (List Bool)
  isNew : Bool

namespace BroadcastConnection

def joined (guid : ℕ) : BroadcastConnection := ⟨guid, none, fun _ => none, false⟩

/-- The channels of `indicesToSend` that have data are sent. -/
def sendSerialize (indicesToSend : OutputChannel → Bool)
    (serializationData : OutputChannel → List Bool) (c : BroadcastConnection) : BroadcastConnection :=
  { c with lastSent := fun z =>
      if indicesToSend z = true ∧ serializationData z ≠ [] then some (serializationData z)
      else c.lastSent z }

/-- The end of `SendConstruction`: the first serialization to a new system, for which
`RM3SR_SERIALIZED_UNIQUELY` waits. -/
def sendConstruction (result : RM3SerializationResult) (out : OutputChannel → List Bool)
    (c : BroadcastConnection) : BroadcastConnection :=
  let c := { c with lsr := some fun _ => [], isNew := true }
  if result = .serializedUniquely then c else c.sendSerialize (fun _ => true) out

/-- `lastBS` is `lastSerializationResultBS` of the connection. -/
def sendSerializeIfChanged (result : RM3SerializationResult) (out : OutputChannel → List Bool)
    (replica : SentReplica) (lastBS : OutputChannel → List Bool) (c : BroadcastConnection) :
    SentReplica × BroadcastConnection :=
  if replica.forceSendUntilNextUpdate then
    (replica, c.sendSerialize replica.indicesToSend replica.bitStream)
  else if ∀ z, out z = [] then (replica, c)
  else match result with
    | .broadcastIdentically =>
      let indicesToSend := fun z => decide (out z ≠ [] ∧ out z ≠ replica.bitStream z)
      (⟨fun z => if indicesToSend z then out z else replica.bitStream z, indicesToSend, true⟩,
        c.sendSerialize indicesToSend out)
    | .serializedUniquely =>
      let indicesToSend := fun z => decide (out z ≠ [] ∧ out z ≠ lastBS z)
      (replica, { c with lsr := some fun z => if indicesToSend z then out z else lastBS z
        }.sendSerialize indicesToSend out)

end BroadcastConnection

/-- The loop of `Update` over `connectionList`. -/
def serializeLoop (result : RM3SerializationResult) (out : OutputChannel → List Bool) :
    SentReplica → List BroadcastConnection → SentReplica × List BroadcastConnection
  | replica, [] => (replica, [])
  | replica, c :: connections =>
    let first := match c.lsr with
      | none => (replica, c)
      | some lastBS => c.sendSerializeIfChanged result out replica lastBS
    let rest := serializeLoop result out first.1 connections
    (rest.1, first.2 :: rest.2)

structure ReplicaWorld (State : Type) where
  state : State
  replica : SentReplica
  connectionList : List BroadcastConnection

/-- `update` has the connections whose `QueryConstruction` sends the construction of the replica,
and whether it is a serialization tick. -/
inductive ReplicaOperation (State : Type)
  | pushConnection (guid : ℕ)
  | closedConnection (guid : ℕ)
  | change (state : State)
  | update (constructing : List ℕ) (tick : Bool)

namespace ReplicaWorld

variable {State : Type}

def initial (state : State) : ReplicaWorld State :=
  ⟨state, ⟨fun _ => [], fun _ => false, false⟩, []⟩

/-- `AutoConstructByQuery` for all connections. -/
def autoConstruct (result : RM3SerializationResult) (serializer : ReplicaSerializer State)
    (constructing : List ℕ) (w : ReplicaWorld State) : ReplicaWorld State :=
  { w with connectionList := w.connectionList.map fun c =>
      if c.guid ∈ constructing ∧ c.lsr.isNone then
        c.sendConstruction result (serializer.serialize w.state)
      else c }

/-- The part of `Update` that is only done once in `autoSerializeInterval`. -/
def autoSerialize (result : RM3SerializationResult) (serializer : ReplicaSerializer State)
    (w : ReplicaWorld State) : ReplicaWorld State :=
  let (replica, connections) := serializeLoop result (serializer.serialize w.state)
    { w.replica with forceSendUntilNextUpdate := false } w.connectionList
  ⟨w.state, replica, connections.map fun c => { c with isNew := false }⟩

def perform (result : RM3SerializationResult) (serializer : ReplicaSerializer State)
    (w : ReplicaWorld State) : ReplicaOperation State → ReplicaWorld State
  | .pushConnection guid => { w with connectionList := w.connectionList ++ [.joined guid] }
  | .closedConnection guid =>
    { w with connectionList := w.connectionList.filter fun c => c.guid ≠ guid }
  | .change state => { w with state := state }
  | .update constructing tick =>
    let w := w.autoConstruct result serializer constructing
    if tick then w.autoSerialize result serializer else w

/-- At a tick no channel is back at what was last broadcast on it, while a connection that has
constructed the replica since the last tick was given other bits. -/
def Settled (result : RM3SerializationResult) (serializer : ReplicaSerializer State)
    (w : ReplicaWorld State) : ReplicaOperation State → Prop
  | .update _ true => result = .broadcastIdentically → ∀ c ∈ w.connectionList,
    c.lsr.isSome = true → c.isNew = true → ∀ z, serializer.serialize w.state z =
      w.replica.bitStream z → c.lastSent z = some (serializer.serialize w.state z)
  | _ => True

def Reachable (result : RM3SerializationResult) (serializer : ReplicaSerializer State)
    (state : State) : ReplicaWorld State → Prop :=
  GuardedRun.Reachable (perform result serializer) (Settled result serializer) (initial state)

/-- The last bits that were sent to every connection with the replica are its present ones. -/
def Current (serializer : ReplicaSerializer State) (w : ReplicaWorld State) : Prop :=
  ∀ c ∈ w.connectionList, c.lsr.isSome = true → ∀ z,
    c.lastSent z = some (serializer.serialize w.state z)

/-! ### One tick -/

section Tick

variable {result : RM3SerializationResult} {out : OutputChannel → List Bool}
  {replica : SentReplica} {connections : List BroadcastConnection}

/-- What a tick does to a connection of a replica that is broadcast. -/
def broadcast (indicesToSend : OutputChannel → Bool) (out : OutputChannel → List Bool)
    (c : BroadcastConnection) : BroadcastConnection :=
  if c.lsr.isSome then c.sendSerialize indicesToSend out else c

theorem serializeLoop_forced (hforce : replica.forceSendUntilNextUpdate = true)
    (hout : replica.bitStream = out) : serializeLoop result out replica connections =
      (replica, connections.map (broadcast replica.indicesToSend out)) := by
  induction connections with
  | nil => rfl
  | cons c connections ih =>
    unfold serializeLoop
    cases hlsr : c.lsr with
    | none =>
      dsimp only
      rw [ih, List.map_cons, broadcast, hlsr]
      rfl
    | some lastBS =>
      have hsend : c.sendSerializeIfChanged result out replica lastBS =
          (replica, c.sendSerialize replica.indicesToSend out) := by
        unfold BroadcastConnection.sendSerializeIfChanged
        rw [if_pos hforce, hout]
      dsimp only
      rw [hsend, ih, List.map_cons, broadcast, hlsr]
      rfl

theorem serializeLoop_broadcast (replica : SentReplica) (connections : List BroadcastConnection)
    (hout : ∀ z, out z ≠ []) (hforce : replica.forceSendUntilNextUpdate = false) :
    (serializeLoop .broadcastIdentically out replica connections).2 =
        connections.map (broadcast (fun z => decide (out z ≠ replica.bitStream z)) out) ∧
      ((∃ c ∈ connections, c.lsr.isSome = true) →
        (serializeLoop .broadcastIdentically out replica connections).1.bitStream = out) := by
  induction connections with
  | nil => exact ⟨rfl, fun ⟨_, hmem, _⟩ => absurd hmem List.not_mem_nil⟩
  | cons c connections ih =>
    unfold serializeLoop
    cases hlsr : c.lsr with
    | none =>
      dsimp only
      refine ⟨?_, fun ⟨c', hmem, hsome⟩ => ih.2 ?_⟩
      · rw [ih.1, List.map_cons, broadcast, hlsr]
        rfl
      · obtain rfl | hmem := List.mem_cons.mp hmem
        · rw [hlsr] at hsome
          cases hsome
        · exact ⟨c', hmem, hsome⟩
    | some lastBS =>
      have hall : ¬∀ z, out z = [] := fun hall => hout 0 (hall 0)
      have hindices : ∀ z, decide (out z ≠ [] ∧ out z ≠ replica.bitStream z) =
          decide (out z ≠ replica.bitStream z) := fun z =>
        decide_eq_decide.mpr (and_iff_right (hout z))
      have himage : (fun z => if decide (out z ≠ replica.bitStream z) = true then out z
          else replica.bitStream z) = out := by
        funext z
        split
        · rfl
        · next hsame => exact (not_not.mp fun hne => hsame (decide_eq_true hne)).symm
      have hsend : c.sendSerializeIfChanged .broadcastIdentically out replica lastBS =
          (⟨out, fun z => decide (out z ≠ replica.bitStream z), true⟩,
            c.sendSerialize (fun z => decide (out z ≠ replica.bitStream z)) out) := by
        unfold BroadcastConnection.sendSerializeIfChanged
        rw [hforce, if_neg (by simp), if_neg hall]
        simp only [hindices, himage]
      dsimp only
      have hrest : serializeLoop .broadcastIdentically out
          ⟨out, fun z => decide (out z ≠ replica.bitStream z), true⟩ connections = _ :=
        serializeLoop_forced rfl rfl
      rw [hsend]
      dsimp only
      rw [hrest]
      refine ⟨?_, fun _ => rfl⟩
      rw [List.map_cons, broadcast, hlsr]
      rfl

/-- What a tick does to a connection of a replica that is serialized for it alone. -/
def sendUniquely (out : OutputChannel → List Bool) (c : BroadcastConnection) : BroadcastConnection :=
  match c.lsr with
  | none => c
  | some lastBS =>
    { c with lsr := some out }.sendSerialize (fun z => decide (out z ≠ lastBS z)) out

theorem serializeLoop_uniquely (replica : SentReplica) (connections : List BroadcastConnection)
    (hout : ∀ z, out z ≠ []) (hforce : replica.forceSendUntilNextUpdate = false) :
    serializeLoop .serializedUniquely out replica connections =
      (replica, connections.map (sendUniquely out)) := by
  induction connections with
  | nil => rfl
  | cons c connections ih =>
    unfold serializeLoop
    cases hlsr : c.lsr with
    | none =>
      dsimp only
      rw [ih, List.map_cons, sendUniquely, hlsr]
    | some lastBS =>
      have hall : ¬∀ z, out z = [] := fun hall => hout 0 (hall 0)
      have hindices : ∀ z, decide (out z ≠ [] ∧ out z ≠ lastBS z) = decide (out z ≠ lastBS z) :=
        fun z => decide_eq_decide.mpr (and_iff_right (hout z))
      have himage : (fun z => if decide (out z ≠ lastBS z) = true then out z else lastBS z) =
          out := by
        funext z
        split
        · rfl
        · next hsame => exact (not_not.mp fun hne => hsame (decide_eq_true hne)).symm
      have hsend : c.sendSerializeIfChanged .serializedUniquely out replica lastBS =
          (replica, { c with lsr := some out }.sendSerialize
            (fun z => decide (out z ≠ lastBS z)) out) := by
        unfold BroadcastConnection.sendSerializeIfChanged
        rw [hforce, if_neg (by simp), if_neg hall]
        simp only [hindices, himage]
      dsimp only
      rw [hsend, ih, List.map_cons, sendUniquely, hlsr]

end Tick

/-! ### Runs -/

variable {result : RM3SerializationResult} {serializer : ReplicaSerializer State}
  {w : ReplicaWorld State} {c : BroadcastConnection}

/-- What was last sent to a connection: what was last broadcast, or what it was last sent alone. -/
def SentTo (result : RM3SerializationResult) (image : OutputChannel → List Bool)
    (c : BroadcastConnection) : Prop :=
  match result with
  | .broadcastIdentically =>
    c.lsr.isSome = true → c.isNew = false → ∀ z, c.lastSent z = some (image z)
  | .serializedUniquely => ∀ z, c.lastSent z = (c.lsr.bind fun lastBS =>
      if lastBS z = [] then none else some (lastBS z))

/-- Every connection has the last bits of the image that is kept for it. -/
def Sound (result : RM3SerializationResult) (w : ReplicaWorld State) : Prop :=
  ∀ c ∈ w.connectionList, SentTo result w.replica.bitStream c

theorem sentTo_joined {guid : ℕ} {image : OutputChannel → List Bool} :
    SentTo result image (.joined guid) := by
  cases result with
  | broadcastIdentically => exact fun hsome => by cases hsome
  | serializedUniquely => exact fun _ => rfl

theorem sentTo_sendConstruction {image out : OutputChannel → List Bool} (hnone : c.lsr = none)
    (hc : SentTo result image c) : SentTo result image (c.sendConstruction result out) := by
  cases result with
  | broadcastIdentically => exact fun _ hnew => by cases hnew
  | serializedUniquely =>
    intro z
    have hlast := hc z
    rw [hnone] at hlast
    exact hlast

theorem sound_autoConstruct {constructing : List ℕ} (hw : w.Sound result) :
    (w.autoConstruct result serializer constructing).Sound result := by
  intro c' hmem
  obtain ⟨c, hc, rfl⟩ := List.mem_map.mp hmem
  split
  · next hboth => exact sentTo_sendConstruction (Option.isNone_iff_eq_none.mp hboth.2) (hw c hc)
  · exact hw c hc

theorem settled_autoConstruct {constructing : List ℕ}
    (hw : w.Settled result serializer (.update constructing true)) :
    (w.autoConstruct result serializer constructing).Settled result serializer
      (.update [] true) := by
  intro hresult c' hmem hsome hnew z hback
  obtain ⟨c, hc, rfl⟩ := List.mem_map.mp hmem
  split at hsome
  · next hboth =>
    rw [if_pos hboth, hresult]
    exact if_pos ⟨rfl, serializer.nonempty _ z⟩
  · next hnot =>
    rw [if_neg hnot] at hnew ⊢
    exact hw hresult c hc hsome hnew z hback

theorem lsr_broadcast {indicesToSend : OutputChannel → Bool} {out : OutputChannel → List Bool} :
    (broadcast indicesToSend out c).lsr = c.lsr := by
  unfold broadcast
  split
  · rfl
  · rfl

theorem lastSent_broadcast {image out : OutputChannel → List Bool} (hout : ∀ z, out z ≠ [])
    (hc : SentTo .broadcastIdentically image c) (hsome : c.lsr.isSome = true)
    (hnew : c.isNew = true → ∀ z, out z = image z → c.lastSent z = some (out z))
    (z : OutputChannel) :
    (broadcast (fun z => decide (out z ≠ image z)) out c).lastSent z = some (out z) := by
  rw [broadcast, if_pos hsome]
  unfold BroadcastConnection.sendSerialize
  dsimp only
  split
  · rfl
  · next hsame =>
    have hback : out z = image z :=
      not_not.mp fun hchanged => hsame ⟨decide_eq_true hchanged, hout z⟩
    by_cases hisNew : c.isNew = true
    · exact hnew hisNew z hback
    · rw [hback]
      exact hc hsome (Bool.eq_false_of_not_eq_true hisNew) z

theorem sendUniquely_spec {image out : OutputChannel → List Bool} (hout : ∀ z, out z ≠ [])
    (hc : SentTo .serializedUniquely image c) (hsome : c.lsr.isSome = true) :
    (sendUniquely out c).lsr = some out ∧
      ∀ z, (sendUniquely out c).lastSent z = some (out z) := by
  obtain ⟨lastBS, hlsr⟩ := Option.isSome_iff_exists.mp hsome
  rw [sendUniquely, hlsr]
  refine ⟨rfl, fun z => ?_⟩
  unfold BroadcastConnection.sendSerialize
  dsimp only
  split
  · rfl
  · next hsame =>
    have hback : out z = lastBS z :=
      not_not.mp fun hchanged => hsame ⟨decide_eq_true hchanged, hout z⟩
    have hlast := hc z
    rw [hlsr, Option.bind_some, ← hback, if_neg (hout z)] at hlast
    exact hlast

theorem sendUniquely_none {out : OutputChannel → List Bool} (hlsr : c.lsr = none) :
    sendUniquely out c = c := by
  rw [sendUniquely, hlsr]

/-- After a tick every connection with the replica has its present bits. -/
theorem autoSerialize_spec (hw : w.Sound result)
    (hsettled : w.Settled result serializer (.update [] true)) :
    (w.autoSerialize result serializer).Sound result ∧
      (w.autoSerialize result serializer).Current serializer := by
  have hne := serializer.nonempty w.state
  cases result with
  | broadcastIdentically =>
    obtain ⟨hconnections, himage⟩ := serializeLoop_broadcast
      { w.replica with forceSendUntilNextUpdate := false } w.connectionList hne rfl
    have hcurrent : ∀ c' ∈ (w.autoSerialize .broadcastIdentically serializer).connectionList,
        c'.lsr.isSome = true → ∃ c ∈ w.connectionList, c.lsr.isSome = true ∧
          ∀ z, c'.lastSent z = some (serializer.serialize w.state z) := by
      intro c' hmem hsome
      obtain ⟨c'', hmem', rfl⟩ := List.mem_map.mp hmem
      rw [hconnections] at hmem'
      obtain ⟨c, hc, rfl⟩ := List.mem_map.mp hmem'
      have hlsr : c.lsr.isSome = true := lsr_broadcast ▸ hsome
      exact ⟨c, hc, hlsr, lastSent_broadcast hne (hw c hc) hlsr (hsettled rfl c hc hlsr)⟩
    refine ⟨fun c' hmem hsome _ z => ?_, fun c' hmem hsome => ?_⟩
    · obtain ⟨c, hc, hlsr, hlast⟩ := hcurrent c' hmem hsome
      refine (hlast z).trans (congrArg some ?_)
      exact (congrFun (himage ⟨c, hc, hlsr⟩) z).symm
    · obtain ⟨_, _, _, hlast⟩ := hcurrent c' hmem hsome
      exact hlast
  | serializedUniquely =>
    have hloop := serializeLoop_uniquely
      { w.replica with forceSendUntilNextUpdate := false } w.connectionList hne rfl
    unfold autoSerialize
    rw [hloop]
    refine ⟨fun c' hmem z => ?_, fun c' hmem hsome z => ?_⟩
    · obtain ⟨c'', hmem', rfl⟩ := List.mem_map.mp hmem
      obtain ⟨c, hc, rfl⟩ := List.mem_map.mp hmem'
      dsimp only
      cases hlsr : c.lsr with
      | none =>
        rw [sendUniquely_none hlsr]
        exact hw c hc z
      | some lastBS =>
        obtain ⟨hkept, hlast⟩ := sendUniquely_spec hne (hw c hc) (by rw [hlsr]; rfl)
        rw [hlast, hkept, Option.bind_some, if_neg (hne z)]
    · obtain ⟨c'', hmem', rfl⟩ := List.mem_map.mp hmem
      obtain ⟨c, hc, rfl⟩ := List.mem_map.mp hmem'
      cases hlsr : c.lsr with
      | none =>
        dsimp only at hsome
        rw [sendUniquely_none hlsr, hlsr] at hsome
        cases hsome
      | some lastBS => exact (sendUniquely_spec hne (hw c hc) (by rw [hlsr]; rfl)).2 z

theorem sound_perform {operation : ReplicaOperation State} (hw : w.Sound result)
    (hsettled : w.Settled result serializer operation) :
    (w.perform result serializer operation).Sound result := by
  cases operation with
  | pushConnection guid =>
    intro c hmem
    obtain hold | hnew := List.mem_append.mp hmem
    · exact hw c hold
    · rw [List.mem_singleton.mp hnew]
      exact sentTo_joined
  | closedConnection guid => exact fun c hmem => hw c (List.mem_filter.mp hmem).1
  | change state => exact hw
  | update constructing tick =>
    cases tick with
    | false => exact sound_autoConstruct hw
    | true =>
      exact (autoSerialize_spec (sound_autoConstruct hw) (settled_autoConstruct hsettled)).1

theorem Reachable.sound {state : State} (hw : w.Reachable result serializer state) :
    w.Sound result :=
  hw.invariant (fun _ hmem => absurd hmem List.not_mem_nil) fun _ _ => sound_perform

theorem settled_of_current {constructing : List ℕ}
    (hcurrent : (w.perform result serializer (.update constructing true)).Current serializer) :
    w.Settled result serializer (.update constructing true) := by
  intro hresult c hc hsome hnew z hback
  subst hresult
  have hkept : c ∈
      (w.autoConstruct .broadcastIdentically serializer constructing).connectionList := by
    refine List.mem_map.mpr ⟨c, hc, if_neg fun hboth => ?_⟩
    rw [Option.isNone_iff_eq_none.mp hboth.2] at hsome
    cases hsome
  have hconnections := (serializeLoop_broadcast
    { w.replica with forceSendUntilNextUpdate := false }
    (w.autoConstruct .broadcastIdentically serializer constructing).connectionList
    (serializer.nonempty w.state) rfl).1
  have hmem := List.mem_map_of_mem (f := fun c : BroadcastConnection => { c with isNew := false })
    (hconnections ▸ List.mem_map_of_mem hkept)
  have hlast := hcurrent _ hmem ((congrArg Option.isSome lsr_broadcast).trans hsome) z
  change (broadcast (fun z => decide (serializer.serialize w.state z ≠ w.replica.bitStream z))
    (serializer.serialize w.state) c).lastSent z = some (serializer.serialize w.state z) at hlast
  rw [broadcast, if_pos hsome] at hlast
  unfold BroadcastConnection.sendSerialize at hlast
  dsimp only at hlast
  have hsame : ¬(decide (serializer.serialize w.state z ≠ w.replica.bitStream z) = true ∧
      serializer.serialize w.state z ≠ []) := fun hboth =>
    absurd hback (of_decide_eq_true hboth.1)
  rw [if_neg hsame] at hlast
  exact hlast

/-- After a serialization tick of a run whose ticks are settled, the last bits that were sent to
each connection with the replica are those of its present state just where the tick is settled. -/
theorem current_after_tick {state : State} {constructing : List ℕ}
    (hw : w.Reachable result serializer state) :
    (w.perform result serializer (.update constructing true)).Current serializer ↔
      w.Settled result serializer (.update constructing true) :=
  ⟨settled_of_current, fun hsettled =>
    (autoSerialize_spec (sound_autoConstruct hw.sound) (settled_autoConstruct hsettled)).2⟩

/-- A replica that writes one bit to every channel. -/
def oneBit : ReplicaSerializer Bool := ⟨fun state _ => [state], fun _ _ => by simp⟩

/-- A connection joins between two ticks, and the state is another one at the next tick. -/
theorem current_after_tick_joined : (([.pushConnection 1, .update [1] true, .change true,
    .pushConnection 2, .update [2] false] : List (ReplicaOperation Bool)).foldl
      (perform .broadcastIdentically oneBit) (initial false)).perform .broadcastIdentically oneBit
        (.update [] true) |>.Current oneBit := by
  have heach : GuardedRun.EachAllowed (perform .broadcastIdentically oneBit)
      (Settled .broadcastIdentically oneBit) (initial false)
      [.pushConnection 1, .update [1] true, .change true, .pushConnection 2,
        .update [2] false] := by
    refine ⟨trivial, ?_, trivial, trivial, trivial, trivial⟩
    exact fun _ c hmem _ hnew => by
      obtain rfl := List.mem_singleton.mp hmem
      cases hnew
  refine (current_after_tick ((GuardedRun.Reachable.start).run heach)).mpr ?_
  intro _ c _ _ _ z hback
  have himage : ∀ z, (([.pushConnection 1, .update [1] true, .change true, .pushConnection 2,
      .update [2] false] : List (ReplicaOperation Bool)).foldl
        (perform .broadcastIdentically oneBit) (initial false)).replica.bitStream z = [false] := by
    decide +kernel
  have hback : [true] = [false] := hback.trans (himage z)
  cases hback

/-- The state changes for the time in which a connection joins: the bits that it was given are not
those of the state, and it is sent no others. -/
theorem joined_between : ¬∀ operations : List (ReplicaOperation Bool), ∀ constructing,
    ((operations.foldl (perform .broadcastIdentically oneBit) (initial false)).perform
      .broadcastIdentically oneBit (.update constructing true)).Current oneBit := by
  intro hall
  have hcurrent := hall [.pushConnection 1, .update [1] true, .change true, .pushConnection 2,
    .update [2] false, .change false] []
  have hold : ∃ c ∈ ((([.pushConnection 1, .update [1] true, .change true, .pushConnection 2,
      .update [2] false, .change false] : List (ReplicaOperation Bool)).foldl
        (perform .broadcastIdentically oneBit) (initial false)).perform .broadcastIdentically oneBit
          (.update [] true)).connectionList,
      c.lsr.isSome = true ∧ c.lastSent 0 = some [true] := by
    decide +kernel
  obtain ⟨c, hmem, hsome, hlast⟩ := hold
  have hpresent : c.lastSent 0 = some [false] := hcurrent c hmem hsome 0
  rw [hlast] at hpresent
  cases hpresent

end ReplicaWorld

end SLikeNet
