import SLikeNet.Library.GuardedRun
import Mathlib.Data.List.FinRange
import Mathlib.Data.Fin.Basic
import Mathlib.Logic.Function.Basic

/-! The worlds of `ReplicaManager3` and the connections in them, where connections are destroyed
automatically. A connection is told apart from the others of its GUID by a number. -/

namespace SLikeNet

structure WorldConnection where
  guid : ℕ
  number : ℕ
deriving DecidableEq

structure WorldConnections where
  /-- The `connectionList` of each world that is in use. -/
  worldsArray : Fin 256 → Option (List WorldConnection)
  nextNumber : ℕ
  /-- What was given to `DeallocConnection`. -/
  deallocated : List WorldConnection

namespace WorldConnections

variable {s : WorldConnections} {guid : ℕ}

def connectionList (s : WorldConnections) (worldId : Fin 256) : List WorldConnection :=
  (s.worldsArray worldId).getD []

def InUse (s : WorldConnections) (worldId : Fin 256) : Prop := s.worldsArray worldId ≠ none

instance (worldId : Fin 256) : Decidable (s.InUse worldId) := by
  unfold InUse
  infer_instance

def setConnectionList (worldId : Fin 256) (connections : List WorldConnection)
    (s : WorldConnections) : WorldConnections :=
  { s with worldsArray := Function.update s.worldsArray worldId (some connections) }

/-- No connection, and the worlds that `active` names. -/
def start (active : Fin 256 → Bool) : WorldConnections :=
  ⟨fun worldId => if active worldId then some [] else none, 0, []⟩

def addWorld (worldId : Fin 256) (s : WorldConnections) : WorldConnections :=
  s.setConnectionList worldId []

def getConnectionByGUID (guid : ℕ) (worldId : Fin 256) (s : WorldConnections) :
    Option WorldConnection :=
  (s.connectionList worldId).find? fun c => c.guid = guid

/-- `AllocConnection` where it returns a connection. -/
def allocConnection (guid : ℕ) (s : WorldConnections) : WorldConnection × WorldConnections :=
  (⟨guid, s.nextNumber⟩, { s with nextNumber := s.nextNumber + 1 })

def deallocConnection (connection : WorldConnection) (s : WorldConnections) : WorldConnections :=
  { s with deallocated := s.deallocated ++ [connection] }

def pushConnection (newConnection : WorldConnection) (worldId : Fin 256) (s : WorldConnections) :
    Bool × WorldConnections :=
  if (s.getConnectionByGUID newConnection.guid worldId).isSome then (false, s)
  else if newConnection ∈ s.connectionList worldId then (true, s)
  else (true, s.setConnectionList worldId (s.connectionList worldId ++ [newConnection]))

/-- The participants come with whether `AllocConnection` returns a connection for them. -/
def autoCreateConnectionList (worldId : Fin 256) :
    List (ℕ × Bool) → WorldConnections → List WorldConnection × WorldConnections
  | [], s => ([], s)
  | (guid, allocates) :: participantList, s =>
    if (s.getConnectionByGUID guid worldId).isSome || !allocates then
      autoCreateConnectionList worldId participantList s
    else
      let rest := autoCreateConnectionList worldId participantList
        ((s.allocConnection guid).2.pushConnection (s.allocConnection guid).1 worldId).2
      ((s.allocConnection guid).1 :: rest.1, rest.2)

def popConnectionAt (index : ℕ) (worldId : Fin 256) (s : WorldConnections) :
    Option WorldConnection × WorldConnections :=
  ((s.connectionList worldId)[index]?,
    s.setConnectionList worldId ((s.connectionList worldId).eraseIdx index))

/-- `PopConnection` of a GUID. -/
def popConnection (guid : ℕ) (worldId : Fin 256) (s : WorldConnections) :
    Option WorldConnection × WorldConnections :=
  match (s.connectionList worldId).findIdx? fun c => c.guid = guid with
  | some index => s.popConnectionAt index worldId
  | none => (none, s)

def onNewConnection (guid : ℕ) (autoCreateConnections allocates : Bool) (s : WorldConnections) :
    WorldConnections :=
  if autoCreateConnections && allocates then
    ((s.allocConnection guid).2.pushConnection (s.allocConnection guid).1 0).2
  else s

/-- What `OnClosedConnection` does in a world that is in use. -/
def closeIn (guid : ℕ) (worldId : Fin 256) (s : WorldConnections) : WorldConnections :=
  match s.popConnection guid worldId with
  | (some connection, s') => s'.deallocConnection connection
  | (none, s') => s'

/-- The loop of `OnClosedConnection`, which breaks at the first world in use. -/
def closeLoop (guid : ℕ) : List (Fin 256) → WorldConnections → WorldConnections
  | [], s => s
  | index :: indexes, s =>
    if s.InUse index then s.closeIn guid index else closeLoop guid indexes s

def onClosedConnection (guid : ℕ) (s : WorldConnections) : WorldConnections :=
  s.closeLoop guid (List.finRange 256)

/-! ### Runs -/

inductive Operation
  | addWorld (worldId : Fin 256)
  | newConnection (guid : ℕ)
  | pushConnection (newConnection : WorldConnection) (worldId : Fin 256)
  | autoCreateConnectionList (participantList : List (ℕ × Bool)) (worldId : Fin 256)
  | popConnectionAt (index : ℕ) (worldId : Fin 256)
  | popConnection (guid : ℕ) (worldId : Fin 256)
  | onNewConnection (guid : ℕ) (autoCreateConnections allocates : Bool)
  | onClosedConnection (guid : ℕ)

def perform (s : WorldConnections) : Operation → WorldConnections
  | .addWorld worldId => s.addWorld worldId
  | .newConnection guid => (s.allocConnection guid).2
  | .pushConnection newConnection worldId => (s.pushConnection newConnection worldId).2
  | .autoCreateConnectionList participantList worldId =>
    (s.autoCreateConnectionList worldId participantList).2
  | .popConnectionAt index worldId => (s.popConnectionAt index worldId).2
  | .popConnection guid worldId => (s.popConnection guid worldId).2
  | .onNewConnection guid autoCreateConnections allocates =>
    s.onNewConnection guid autoCreateConnections allocates
  | .onClosedConnection guid => s.onClosedConnection guid

/-- The assertions on the world, and what is pushed is a connection that was not destroyed. -/
def Allowed (s : WorldConnections) : Operation → Prop
  | .addWorld worldId => ¬ s.InUse worldId
  | .newConnection _ => True
  | .pushConnection newConnection worldId =>
    s.InUse worldId ∧ newConnection.number < s.nextNumber ∧ newConnection ∉ s.deallocated
  | .autoCreateConnectionList _ worldId => s.InUse worldId
  | .popConnectionAt index worldId =>
    s.InUse worldId ∧ index < (s.connectionList worldId).length
  | .popConnection _ worldId => s.InUse worldId
  | .onNewConnection _ autoCreateConnections allocates =>
    (autoCreateConnections && allocates) = true → s.InUse 0
  | .onClosedConnection _ => True

def Reachable (active : Fin 256 → Bool) : WorldConnections → Prop :=
  GuardedRun.Reachable perform Allowed (start active)

/-- No world has a connection of the GUID, and what a world lost was destroyed once. -/
def ClosedEverywhere (guid : ℕ) (s s' : WorldConnections) : Prop :=
  (∀ worldId, ∀ c ∈ s'.connectionList worldId, c.guid ≠ guid) ∧
    ∀ worldId, ∀ c ∈ s.connectionList worldId, c ∉ s'.connectionList worldId →
      s'.deallocated.count c = 1

/-- The world of the least number that is in use. -/
def Lowest (s : WorldConnections) (worldId : Fin 256) : Prop :=
  s.InUse worldId ∧ ∀ i < worldId, ¬ s.InUse i


/-! ### Lookups -/

theorem connectionList_setConnectionList {worldId i : Fin 256}
    {connections : List WorldConnection} :
    (s.setConnectionList worldId connections).connectionList i =
      if i = worldId then connections else s.connectionList i := by
  by_cases hi : i = worldId
  · simp [setConnectionList, connectionList, hi]
  · simp [setConnectionList, connectionList, hi]

theorem inUse_setConnectionList {worldId i : Fin 256} {connections : List WorldConnection} :
    (s.setConnectionList worldId connections).InUse i ↔ i = worldId ∨ s.InUse i := by
  by_cases hi : i = worldId
  · simp [setConnectionList, InUse, hi]
  · simp [setConnectionList, InUse, hi]

theorem inUse_of_mem {worldId : Fin 256} {c : WorldConnection}
    (hc : c ∈ s.connectionList worldId) : s.InUse worldId := by
  intro hnone
  simp [connectionList, hnone] at hc

theorem Lowest.unique {i j : Fin 256} (hi : s.Lowest i) (hj : s.Lowest j) : i = j := by
  rcases lt_trichotomy i j with hlt | heq | hlt
  · exact absurd hi.1 (hj.2 i hlt)
  · exact heq
  · exact absurd hj.1 (hi.2 j hlt)

theorem Lowest.of_setConnectionList {worldId i : Fin 256} {connections : List WorldConnection}
    (h : (s.setConnectionList worldId connections).Lowest i) (hi : s.InUse i) : s.Lowest i := by
  refine ⟨hi, fun j hj hjuse => ?_⟩
  exact h.2 j hj (inUse_setConnectionList.mpr (Or.inr hjuse))

theorem guid_ne_of_getConnectionByGUID {worldId : Fin 256}
    (h : ¬ (s.getConnectionByGUID guid worldId).isSome) :
    ∀ c ∈ s.connectionList worldId, c.guid ≠ guid := by
  intro c hc heq
  simp only [getConnectionByGUID, List.find?_isSome, not_exists, not_and] at h
  exact h c hc (by simpa using heq)

theorem popConnection_cases (guid : ℕ) (worldId : Fin 256) (s : WorldConnections) :
    (∃ (index : ℕ) (h : index < (s.connectionList worldId).length),
      (s.connectionList worldId)[index].guid = guid ∧
      s.popConnection guid worldId = (some (s.connectionList worldId)[index],
        s.setConnectionList worldId ((s.connectionList worldId).eraseIdx index))) ∨
    ((∀ c ∈ s.connectionList worldId, c.guid ≠ guid) ∧
      s.popConnection guid worldId = (none, s)) := by
  cases hfind : (s.connectionList worldId).findIdx? fun c => c.guid = guid with
  | some index =>
    obtain ⟨hlt, hguid, -⟩ := List.findIdx?_eq_some_iff_getElem.mp hfind
    refine Or.inl ⟨index, hlt, by simpa using hguid, ?_⟩
    simp only [popConnection, hfind, popConnectionAt, List.getElem?_eq_getElem hlt]
  | none =>
    refine Or.inr ⟨fun c hc => ?_, by simp only [popConnection, hfind]⟩
    simpa using List.findIdx?_eq_none_iff.mp hfind c hc

theorem closeLoop_cases (s : WorldConnections) (guid : ℕ) {indexes : List (Fin 256)}
    (hsorted : indexes.Pairwise (· < ·)) :
    (∃ worldId ∈ indexes, s.InUse worldId ∧ (∀ i ∈ indexes, i < worldId → ¬ s.InUse i) ∧
      s.closeLoop guid indexes = s.closeIn guid worldId) ∨
    ((∀ worldId ∈ indexes, ¬ s.InUse worldId) ∧ s.closeLoop guid indexes = s) := by
  induction indexes with
  | nil => exact Or.inr ⟨by simp, rfl⟩
  | cons index indexes ih =>
    obtain ⟨hfirst, hrest⟩ := List.pairwise_cons.mp hsorted
    by_cases huse : s.InUse index
    · refine Or.inl ⟨index, List.mem_cons_self, huse, fun i hi hlt => ?_, ?_⟩
      · rcases List.mem_cons.mp hi with heq | hi
        · exact absurd hlt (by simp [heq])
        · exact absurd (hfirst i hi) (lt_asymm hlt)
      · rw [closeLoop, if_pos huse]
    · have hloop : s.closeLoop guid (index :: indexes) = s.closeLoop guid indexes := by
        rw [closeLoop, if_neg huse]
      rw [hloop]
      rcases ih hrest with ⟨worldId, hmem, hworld, hbefore, heq⟩ | ⟨hnone, heq⟩
      · refine Or.inl ⟨worldId, List.mem_cons_of_mem _ hmem, hworld, fun i hi hlt => ?_, heq⟩
        rcases List.mem_cons.mp hi with rfl | hi
        · exact huse
        · exact hbefore i hi hlt
      · refine Or.inr ⟨fun worldId hmem => ?_, heq⟩
        rcases List.mem_cons.mp hmem with rfl | hmem
        · exact huse
        · exact hnone worldId hmem

theorem onClosedConnection_cases (guid : ℕ) (s : WorldConnections) :
    (∃ worldId, s.Lowest worldId ∧ s.onClosedConnection guid = s.closeIn guid worldId) ∨
    ((∀ worldId, ¬ s.InUse worldId) ∧ s.onClosedConnection guid = s) := by
  rcases closeLoop_cases s guid (List.pairwise_lt_finRange 256) with
    ⟨worldId, -, huse, hbefore, heq⟩ | ⟨hnone, heq⟩
  · exact Or.inl ⟨worldId, ⟨huse, fun i hi => hbefore i (List.mem_finRange i) hi⟩, heq⟩
  · exact Or.inr ⟨fun worldId => hnone worldId (List.mem_finRange worldId), heq⟩

/-! ### What every operation keeps -/

structure Sound (s : WorldConnections) : Prop where
  /-- A world has one connection of a GUID at most. -/
  unique : ∀ worldId, ((s.connectionList worldId).map WorldConnection.guid).Nodup
  numbered : ∀ worldId, ∀ c ∈ s.connectionList worldId, c.number < s.nextNumber
  deallocated : ∀ c ∈ s.deallocated, c.number < s.nextNumber
  /-- Only the lowest world is cleaned up, so what is left in it is not destroyed. -/
  live : ∀ worldId, s.Lowest worldId → ∀ c ∈ s.connectionList worldId, c ∉ s.deallocated

theorem Sound.start {active : Fin 256 → Bool} : (start active).Sound := by
  have hempty : ∀ worldId, (WorldConnections.start active).connectionList worldId = [] := by
    intro worldId
    cases hactive : active worldId with
    | true => simp [WorldConnections.start, connectionList, hactive]
    | false => simp [WorldConnections.start, connectionList, hactive]
  refine ⟨fun worldId => ?_, fun worldId c hc => ?_, fun c hc => ?_, fun worldId _ c hc => ?_⟩
  · simp [hempty]
  · simp [hempty] at hc
  · simp [WorldConnections.start] at hc
  · simp [hempty] at hc

theorem Sound.setConnectionList (h : s.Sound) {worldId : Fin 256}
    {connections : List WorldConnection}
    (hunique : (connections.map WorldConnection.guid).Nodup)
    (hnumbered : ∀ c ∈ connections, c.number < s.nextNumber)
    (hlive : (s.setConnectionList worldId connections).Lowest worldId →
      ∀ c ∈ connections, c ∉ s.deallocated) :
    (s.setConnectionList worldId connections).Sound := by
  refine ⟨fun i => ?_, fun i c hc => ?_, h.deallocated, fun i hi c hc => ?_⟩
  · rw [connectionList_setConnectionList]
    split
    · exact hunique
    · exact h.unique i
  · rw [connectionList_setConnectionList] at hc
    split at hc
    · exact hnumbered c hc
    · exact h.numbered i c hc
  · rw [connectionList_setConnectionList] at hc
    split at hc
    · rename_i heq
      rw [heq] at hi
      exact hlive hi c hc
    · exact h.live i (hi.of_setConnectionList (inUse_of_mem hc)) c hc

theorem Sound.allocConnection (h : s.Sound) (guid : ℕ) : (s.allocConnection guid).2.Sound := by
  refine ⟨h.unique, fun worldId c hc => ?_, fun c hc => ?_, h.live⟩
  · exact Nat.lt_succ_of_lt (h.numbered worldId c hc)
  · exact Nat.lt_succ_of_lt (h.deallocated c hc)

theorem Sound.pushConnection (h : s.Sound) {newConnection : WorldConnection} {worldId : Fin 256}
    (huse : s.InUse worldId) (hnumber : newConnection.number < s.nextNumber)
    (hlive : newConnection ∉ s.deallocated) :
    (s.pushConnection newConnection worldId).2.Sound := by
  rw [WorldConnections.pushConnection]
  split
  · exact h
  · rename_i hguid
    split
    · exact h
    · have hnew := guid_ne_of_getConnectionByGUID hguid
      refine h.setConnectionList ?_ (fun c hc => ?_) (fun hlowest c hc => ?_)
      · rw [List.map_append, List.nodup_append]
        refine ⟨h.unique worldId, by simp, fun a ha b hb => ?_⟩
        obtain ⟨c, hc, rfl⟩ := List.mem_map.mp ha
        rw [List.map_singleton, List.mem_singleton] at hb
        rw [hb]
        exact hnew c hc
      · rcases List.mem_append.mp hc with hc | hc
        · exact h.numbered worldId c hc
        · rw [List.mem_singleton.mp hc]
          exact hnumber
      · rcases List.mem_append.mp hc with hc | hc
        · exact h.live worldId (hlowest.of_setConnectionList huse) c hc
        · rw [List.mem_singleton.mp hc]
          exact hlive

theorem Sound.pushNew (h : s.Sound) (guid : ℕ) {worldId : Fin 256} (huse : s.InUse worldId) :
    ((s.allocConnection guid).2.pushConnection (s.allocConnection guid).1 worldId).2.Sound := by
  refine (h.allocConnection guid).pushConnection huse (Nat.lt_succ_self _) fun hmem => ?_
  exact absurd (h.deallocated _ hmem) (lt_irrefl s.nextNumber)

theorem inUse_pushConnection {c : WorldConnection} {worldId i : Fin 256} (h : s.InUse i) :
    (s.pushConnection c worldId).2.InUse i := by
  rw [pushConnection]
  split
  · exact h
  · split
    · exact h
    · exact inUse_setConnectionList.mpr (Or.inr h)

theorem Sound.autoCreateConnectionList (h : s.Sound) {worldId : Fin 256}
    (huse : s.InUse worldId) (participantList : List (ℕ × Bool)) :
    (s.autoCreateConnectionList worldId participantList).2.Sound := by
  induction participantList generalizing s with
  | nil => exact h
  | cons participant participantList ih =>
    rw [WorldConnections.autoCreateConnectionList]
    split
    · exact ih h huse
    · exact ih (h.pushNew participant.1 huse) (inUse_pushConnection huse)

theorem Sound.eraseIdx (h : s.Sound) {worldId : Fin 256} (huse : s.InUse worldId) (index : ℕ) :
    (s.setConnectionList worldId ((s.connectionList worldId).eraseIdx index)).Sound := by
  have hsub : ((s.connectionList worldId).eraseIdx index).Sublist (s.connectionList worldId) :=
    List.eraseIdx_sublist _ _
  refine h.setConnectionList ((h.unique worldId).sublist (hsub.map _)) (fun c hc => ?_)
    (fun hlowest c hc => ?_)
  · exact h.numbered worldId c (hsub.subset hc)
  · exact h.live worldId (hlowest.of_setConnectionList huse) c (hsub.subset hc)

theorem Sound.popConnection (h : s.Sound) (guid : ℕ) {worldId : Fin 256}
    (huse : s.InUse worldId) : (s.popConnection guid worldId).2.Sound := by
  rcases popConnection_cases guid worldId s with ⟨index, hlt, -, heq⟩ | ⟨-, heq⟩
  · rw [heq]
    exact h.eraseIdx huse index
  · rw [heq]
    exact h

theorem Sound.guid_ne_of_mem_eraseIdx (h : s.Sound) {worldId : Fin 256} {index : ℕ}
    (hlt : index < (s.connectionList worldId).length) {c : WorldConnection}
    (hc : c ∈ (s.connectionList worldId).eraseIdx index) :
    c.guid ≠ (s.connectionList worldId)[index].guid := by
  obtain ⟨i, hi, hne, rfl⟩ := List.mem_eraseIdx_iff_getElem.mp hc
  intro heq
  have hguids : ((s.connectionList worldId).map WorldConnection.guid)[i]? =
      ((s.connectionList worldId).map WorldConnection.guid)[index]? := by
    rw [List.getElem?_map, List.getElem?_map, List.getElem?_eq_getElem hi,
      List.getElem?_eq_getElem hlt]
    simpa using heq
  exact hne ((List.getElem?_inj (by simpa using hi) (h.unique worldId)).mp hguids)

/-- Closing in the lowest world: it loses its connection of the GUID, which is destroyed, and
nothing else changes. -/
theorem Sound.closeIn_cases (h : s.Sound) (guid : ℕ) {worldId : Fin 256}
    (hlowest : s.Lowest worldId) :
    (∃ c ∈ s.connectionList worldId, c.guid = guid ∧
      (s.closeIn guid worldId).deallocated = s.deallocated ++ [c] ∧ c ∉ s.deallocated ∧
      (∀ d ∈ (s.closeIn guid worldId).connectionList worldId,
        d ∈ s.connectionList worldId ∧ d.guid ≠ guid) ∧
      (∀ d ∈ s.connectionList worldId, d ≠ c →
        d ∈ (s.closeIn guid worldId).connectionList worldId) ∧
      ∀ i ≠ worldId, (s.closeIn guid worldId).connectionList i = s.connectionList i) ∨
    ((∀ c ∈ s.connectionList worldId, c.guid ≠ guid) ∧ s.closeIn guid worldId = s) := by
  rcases popConnection_cases guid worldId s with ⟨index, hlt, hguid, heq⟩ | ⟨hnone, heq⟩
  · have hclose : s.closeIn guid worldId = (s.setConnectionList worldId
        ((s.connectionList worldId).eraseIdx index)).deallocConnection
          (s.connectionList worldId)[index] := by
      rw [closeIn, heq]
    have hlist : ∀ i, (s.closeIn guid worldId).connectionList i =
        if i = worldId then (s.connectionList worldId).eraseIdx index
        else s.connectionList i := by
      intro i
      rw [hclose]
      exact connectionList_setConnectionList
    refine Or.inl ⟨(s.connectionList worldId)[index], List.getElem_mem hlt, hguid, ?_,
      h.live worldId hlowest _ (List.getElem_mem hlt), fun d hd => ?_, fun d hd hne => ?_,
      fun i hi => ?_⟩
    · rw [hclose]
      rfl
    · rw [hlist, if_pos rfl] at hd
      exact ⟨(List.eraseIdx_sublist _ _).subset hd, hguid ▸ h.guid_ne_of_mem_eraseIdx hlt hd⟩
    · rw [hlist, if_pos rfl]
      obtain ⟨i, hi, rfl⟩ := List.getElem_of_mem hd
      refine List.mem_eraseIdx_iff_getElem.mpr ⟨i, hi, fun hii => hne ?_, rfl⟩
      simp only [hii]
    · rw [hlist, if_neg hi]
  · refine Or.inr ⟨hnone, ?_⟩
    rw [closeIn, heq]

theorem Sound.deallocConnection (h : s.Sound) {c : WorldConnection}
    (hnumber : c.number < s.nextNumber)
    (hlive : ∀ worldId, s.Lowest worldId → c ∉ s.connectionList worldId) :
    (s.deallocConnection c).Sound := by
  refine ⟨h.unique, h.numbered, fun d hd => ?_, fun worldId hlowest d hd hdeallocated => ?_⟩
  · rcases List.mem_append.mp hd with hd | hd
    · exact h.deallocated d hd
    · rw [List.mem_singleton.mp hd]
      exact hnumber
  · rcases List.mem_append.mp hdeallocated with hmem | hmem
    · exact h.live worldId hlowest d hd hmem
    · rw [List.mem_singleton.mp hmem] at hd
      exact hlive worldId hlowest hd

theorem Sound.closeIn (h : s.Sound) (guid : ℕ) {worldId : Fin 256} (hlowest : s.Lowest worldId) :
    (s.closeIn guid worldId).Sound := by
  rcases popConnection_cases guid worldId s with ⟨index, hlt, -, heq⟩ | ⟨-, heq⟩
  · rw [WorldConnections.closeIn, heq]
    refine (h.eraseIdx hlowest.1 index).deallocConnection
      (h.numbered worldId _ (List.getElem_mem hlt)) fun i hi hmem => ?_
    rw [connectionList_setConnectionList] at hmem
    split at hmem
    · exact h.guid_ne_of_mem_eraseIdx hlt hmem rfl
    · rename_i hne
      exact hne ((hi.of_setConnectionList (inUse_of_mem hmem)).unique hlowest)
  · rw [WorldConnections.closeIn, heq]
    exact h

theorem Sound.onClosedConnection (h : s.Sound) (guid : ℕ) :
    (s.onClosedConnection guid).Sound := by
  rcases onClosedConnection_cases guid s with ⟨worldId, hlowest, heq⟩ | ⟨-, heq⟩
  · rw [heq]
    exact h.closeIn guid hlowest
  · rw [heq]
    exact h

theorem Reachable.sound {active : Fin 256 → Bool} (h : Reachable active s) : s.Sound := by
  refine GuardedRun.Reachable.invariant h .start fun s op hs hop => ?_
  cases op with
  | addWorld worldId =>
    exact hs.setConnectionList (by simp) (by simp) (by simp)
  | newConnection guid => exact hs.allocConnection guid
  | pushConnection newConnection worldId => exact hs.pushConnection hop.1 hop.2.1 hop.2.2
  | autoCreateConnectionList participantList worldId =>
    exact hs.autoCreateConnectionList hop participantList
  | popConnectionAt index worldId => exact hs.eraseIdx hop.1 index
  | popConnection guid worldId => exact hs.popConnection guid hop
  | onNewConnection guid autoCreateConnections allocates =>
    rw [perform, WorldConnections.onNewConnection]
    split
    · rename_i hauto
      exact hs.pushNew guid (hop hauto)
    · exact hs
  | onClosedConnection guid => exact hs.onClosedConnection guid

/-! ### Closing a connection -/

/-- After `OnClosedConnection` no world has a connection of the GUID, and what the worlds lost is
destroyed once, exactly where only the lowest world in use had one. -/
theorem closedEverywhere_iff {active : Fin 256 → Bool} (h : Reachable active s) (guid : ℕ) :
    ClosedEverywhere guid s (s.onClosedConnection guid) ↔
      ∀ worldId, ∀ c ∈ s.connectionList worldId, c.guid = guid → s.Lowest worldId := by
  have hsound := h.sound
  rcases onClosedConnection_cases guid s with ⟨lowest, hlowest, heq⟩ | ⟨hnone, heq⟩
  · rw [heq]
    rcases hsound.closeIn_cases guid hlowest with
      ⟨c, hmem, hguid, hdeallocated, hnew, hkept, hstays, hother⟩ | ⟨hlist, hsame⟩
    · constructor
      · intro hclosed worldId d hd hdguid
        by_cases hworld : worldId = lowest
        · rw [hworld]
          exact hlowest
        · exact absurd hdguid (hclosed.1 worldId d (by rwa [hother worldId hworld]))
      · intro honly
        refine ⟨fun worldId d hd hdguid => ?_, fun worldId d hd hlost => ?_⟩
        · by_cases hworld : worldId = lowest
          · rw [hworld] at hd
            exact (hkept d hd).2 hdguid
          · rw [hother worldId hworld] at hd
            exact hworld ((honly worldId d hd hdguid).unique hlowest)
        · by_cases hworld : worldId = lowest
          · rw [hworld] at hd hlost
            have hdc : d = c := by
              by_contra hne
              exact hlost (hstays d hd hne)
            rw [hdc, hdeallocated, List.count_append, List.count_eq_zero_of_not_mem hnew]
            simp
          · rw [hother worldId hworld] at hlost
            exact absurd hd hlost
    · rw [hsame]
      constructor
      · intro hclosed worldId d hd hdguid
        exact absurd hdguid (hclosed.1 worldId d hd)
      · intro honly
        refine ⟨fun worldId d hd hdguid => ?_, fun worldId d hd hlost => absurd hd hlost⟩
        have hworld := (honly worldId d hd hdguid).unique hlowest
        rw [hworld] at hd
        exact hlist d hd hdguid
  · have hempty : ∀ worldId, ∀ c, c ∉ s.connectionList worldId := fun worldId c hc =>
      hnone worldId (inUse_of_mem hc)
    rw [heq]
    constructor
    · intro _ worldId c hc
      exact absurd hc (hempty worldId c)
    · intro _
      exact ⟨fun worldId c hc => absurd hc (hempty worldId c),
        fun worldId c hc => absurd hc (hempty worldId c)⟩

/-- Two worlds, and a connection that is in the second one only. -/
def secondWorldRun : List Operation :=
  [.addWorld 1, .newConnection 7, .pushConnection ⟨7, 0⟩ 1]

def secondWorld : WorldConnections :=
  secondWorldRun.foldl perform (start fun worldId => worldId = 0)

theorem secondWorld_reachable : Reachable (fun worldId => worldId = 0) secondWorld :=
  GuardedRun.Reachable.run .start
    ⟨(fun h => h rfl), trivial, ⟨by decide, by decide, by decide⟩, trivial⟩

theorem closedEverywhere_iff_secondWorld :
    ClosedEverywhere 7 secondWorld (secondWorld.onClosedConnection 7) ↔
      ∀ worldId, ∀ c ∈ secondWorld.connectionList worldId, c.guid = 7 →
        secondWorld.Lowest worldId :=
  closedEverywhere_iff secondWorld_reachable 7

/-- The connection in the second world stays. -/
theorem closed_stays_in_second_world :
    ¬ ∀ (active : Fin 256 → Bool) (s : WorldConnections) (guid : ℕ), Reachable active s →
      ClosedEverywhere guid s (s.onClosedConnection guid) := by
  intro h
  have hclosed := h _ _ 7 secondWorld_reachable
  exact hclosed.1 1 ⟨7, 0⟩ (by decide +kernel) rfl

end WorldConnections

end SLikeNet
