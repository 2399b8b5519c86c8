import Mathlib.Data.Int.Notation
import SLikeNet.Library.Transition
import SLikeNet.ReadyEventCalls

/-! All events of one system: whether the status of an event is the one that follows from what the
system has set and what it has received. -/

namespace SLikeNet

namespace ReadyEvent

open ReadyEventNode

def isEventCompleted : Event → Bool
  | none => false
  | some ren => ren.eventStatus == .allSet &&
    ren.systemList.all fun rs => rs.lastReceivedStatus == .allSet

/-- What `RemoveFromAllLists` does with one event. The status is updated where the system is not in
the list, too. -/
def removeFromList (guid : ℕ) : Event → Event × Sent
  | none => (none, [])
  | some ren =>
    kept (updateReadyStatus ⟨ren.eventStatus, ren.systemList.filter fun rs => rs.rakNetGuid ≠ guid⟩)

inductive EventCall
  | setEvent (eventId : ℤ) (isReady : Bool)
  | deleteEvent (eventId : ℤ)
  | addToWaitList (eventId : ℤ) (guids : List ℕ)
  | removeFromWaitList (eventId : ℤ) (guid : Option ℕ)
  | onReceive (eventId : ℤ) (sender : ℕ) (message : Message)
  | onClosedConnection (guid : ℕ)
  | onRakPeerShutdown

/-- The events of a system, and for which of them it has last set that it is ready. -/
structure EventList where
  event : ℤ → Event
  isReady : ℤ → Bool

namespace EventList

def empty : EventList := ⟨fun _ => none, fun _ => false⟩

def onEvent (eventId : ℤ) (call : Event → Event × Sent) (s : EventList) : EventList :=
  { s with event := Function.update s.event eventId (call (s.event eventId)).1 }

def perform (s : EventList) : EventCall → EventList
  | .setEvent eventId isReady =>
    { s.onEvent eventId (ReadyEvent.setEvent isReady) with
      isReady := Function.update s.isReady eventId isReady }
  | .deleteEvent eventId =>
    { s.onEvent eventId ReadyEvent.deleteEvent with
      isReady := Function.update s.isReady eventId false }
  | .addToWaitList eventId guids => s.onEvent eventId (ReadyEvent.addToWaitList guids)
  | .removeFromWaitList eventId guid => s.onEvent eventId (ReadyEvent.removeFromWaitList guid)
  | .onReceive eventId sender message => s.onEvent eventId (ReadyEvent.onReceive sender message)
  | .onClosedConnection guid =>
    { s with event := fun eventId => (removeFromList guid (s.event eventId)).1 }
  | .onRakPeerShutdown => empty

def run (calls : List EventCall) : EventList := calls.foldl perform empty

/-- The status that an event is shown with follows from the current state. -/
structure Derived (s : EventList) : Prop where
  allSet : ∀ eventId ren, s.event eventId = some ren →
    (ren.eventStatus = .allSet ↔
      s.isReady eventId = true ∧ ∀ rs ∈ ren.systemList, rs.lastReceivedStatus ≠ .unset)
  completed : ∀ eventId, isEventCompleted (s.event eventId) = true ↔
    ∃ ren, s.event eventId = some ren ∧ s.isReady eventId = true ∧
      ∀ rs ∈ ren.systemList, rs.lastReceivedStatus ≠ .unset ∧ rs.lastReceivedStatus = .allSet

/-- The call creates an event that is ready from the start. -/
def CreatesReady (s : EventList) : EventCall → Prop
  | .setEvent eventId isReady => isReady = true ∧ s.event eventId = none
  | _ => False

end EventList

/-! ### One event -/

variable {ren : ReadyEventNode} {isReady : Bool}

theorem anyUnset_eq_false_iff : ren.anyUnset = false ↔
    ∀ rs ∈ ren.systemList, rs.lastReceivedStatus ≠ .unset := by
  simp [anyUnset]

/-- The status is the one of an update, and it is `ID_READY_EVENT_UNSET` where the system is not
ready. -/
structure Current (isReady : Bool) (ren : ReadyEventNode) : Prop where
  updated : ren.eventStatus = ren.readyStatus
  unset : ren.eventStatus = .unset ↔ isReady = false

theorem Current.allSet_iff (h : Current isReady ren) : ren.eventStatus = .allSet ↔
    isReady = true ∧ ∀ rs ∈ ren.systemList, rs.lastReceivedStatus ≠ .unset := by
  have hunset := h.unset
  have hupdated := h.updated
  rw [← anyUnset_eq_false_iff]
  rw [readyStatus] at hupdated
  cases hlist : ren.anyUnset with
  | true =>
    have hnot : ren.eventStatus ≠ .allSet := by
      intro hallSet
      rw [hallSet, hlist] at hupdated
      cases hupdated
    exact iff_of_false hnot fun h => Bool.noConfusion h.2
  | false =>
    rw [hlist] at hupdated
    cases hstatus : ren.eventStatus with
    | unset =>
      refine iff_of_false (fun h => ?_) fun h => ?_
      · cases h
      · cases (hunset.mp hstatus).symm.trans h.1
    | set =>
      rw [hstatus] at hupdated
      cases hupdated
    | allSet =>
      refine iff_of_true rfl ⟨?_, rfl⟩
      rw [← Bool.not_eq_false, ← hunset.not, hstatus]
      intro h
      cases h

theorem readyStatus_congr {ren ren' : ReadyEventNode} (hstatus : ren'.eventStatus = ren.eventStatus)
    (hlist : ren'.systemList.map RemoteSystem.lastReceivedStatus =
      ren.systemList.map RemoteSystem.lastReceivedStatus) : ren'.readyStatus = ren.readyStatus := by
  have hany : ∀ r : ReadyEventNode,
      r.anyUnset = (r.systemList.map RemoteSystem.lastReceivedStatus).any (· == .unset) := by
    intro r
    rw [anyUnset, List.any_map]
    rfl
  rw [readyStatus, readyStatus, hstatus, hany, hany, hlist]

theorem Current.congr {ren' : ReadyEventNode} (h : Current isReady ren)
    (hstatus : ren'.eventStatus = ren.eventStatus)
    (hlist : ren'.systemList.map RemoteSystem.lastReceivedStatus =
      ren.systemList.map RemoteSystem.lastReceivedStatus) : Current isReady ren' where
  updated := by rw [hstatus, h.updated, readyStatus_congr hstatus hlist]
  unset := by rw [hstatus, h.unset]

theorem readyStatus_readyStatus (systemList : List RemoteSystem) (eventStatus : Status) :
    readyStatus ⟨readyStatus ⟨eventStatus, systemList⟩, systemList⟩ =
      readyStatus ⟨eventStatus, systemList⟩ := by
  have hany : ∀ status, anyUnset ⟨status, systemList⟩ =
      systemList.any fun rs => rs.lastReceivedStatus == .unset := fun _ => rfl
  simp only [readyStatus, hany]
  cases eventStatus <;> cases systemList.any _ <;> rfl

theorem current_updateReadyStatus (h : ren.eventStatus = .unset ↔ isReady = false) :
    Current isReady (updateReadyStatus ren).1 := by
  have hcurrent : Current isReady ⟨ren.readyStatus, ren.systemList⟩ :=
    ⟨(readyStatus_readyStatus _ _).symm, (readyStatus_eq_unset ren).trans h⟩
  refine hcurrent.congr rfl ?_
  show (ren.systemList.map _).map _ = _
  rw [List.map_map]
  exact List.map_congr_left fun rs _ => sendReadyUpdate_received _ _ rs

/-- The status of an event is current, and an event that does not exist is not ready. -/
def IsCurrent (isReady : Bool) : Event → Prop
  | none => isReady = false
  | some ren => Current isReady ren

theorem IsCurrent.setEvent {event : Event} {wasReady : Bool} (h : IsCurrent wasReady event)
    (hnot : ¬ (isReady = true ∧ event = none)) :
    IsCurrent isReady (ReadyEvent.setEvent isReady event).1 := by
  cases event with
  | none =>
    cases isReady with
    | true => exact absurd ⟨rfl, rfl⟩ hnot
    | false => exact ⟨rfl, iff_of_true rfl rfl⟩
  | some ren =>
    have hcurrent : Current wasReady ren := h
    rw [ReadyEvent.setEvent]
    split
    · rename_i hsame
      have hready : wasReady = true := by
        rw [← Bool.not_eq_false, ← hcurrent.unset.not]
        exact hsame.2
      rw [hsame.1, ← hready]
      exact hcurrent
    · split
      · rename_i hsame
        have hready : wasReady = false := hcurrent.unset.mp hsame.2
        rw [hsame.1, ← hready]
        exact hcurrent
      · apply current_updateReadyStatus
        cases isReady <;> simp

theorem foldl_addToWaitListInternal (guids : List ℕ) (r : ReadyEventNode × Sent × ℕ) :
    (guids.foldl addToWaitListInternal r).1.eventStatus = r.1.eventStatus ∧
      r.2.2 ≤ (guids.foldl addToWaitListInternal r).2.2 ∧
      ((guids.foldl addToWaitListInternal r).2.2 = r.2.2 →
        (guids.foldl addToWaitListInternal r).1 = r.1) := by
  induction guids generalizing r with
  | nil => exact ⟨rfl, Nat.le_refl _, fun _ => rfl⟩
  | cons guid guids ih =>
    obtain ⟨hstatus, hle, hsame⟩ := ih (addToWaitListInternal r guid)
    rw [List.foldl_cons]
    by_cases hfind : (r.1.find guid).isSome
    · have hr : addToWaitListInternal r guid = r := if_pos hfind
      rw [hr] at hstatus hle hsame ⊢
      exact ⟨hstatus, hle, hsame⟩
    · have hr : (addToWaitListInternal r guid).1.eventStatus = r.1.eventStatus ∧
          (addToWaitListInternal r guid).2.2 = r.2.2 + 1 := by
        rw [addToWaitListInternal, if_neg hfind]
        exact ⟨rfl, rfl⟩
      refine ⟨hstatus.trans hr.1, by omega, fun heq => ?_⟩
      omega

theorem IsCurrent.nodeOf {event : Event} (h : IsCurrent isReady event) :
    Current isReady (nodeOf event) := by
  cases event with
  | none =>
    have hready : isReady = false := h
    exact ⟨rfl, iff_of_true rfl hready⟩
  | some ren => exact h

theorem IsCurrent.addToWaitList {event : Event} (h : IsCurrent isReady event) (guids : List ℕ) :
    IsCurrent isReady (ReadyEvent.addToWaitList guids event).1 := by
  have hnode := h.nodeOf
  obtain ⟨hstatus, -, hsame⟩ := foldl_addToWaitListInternal guids (ReadyEvent.nodeOf event, [], 0)
  rw [addToWaitList_eq]
  split
  · exact current_updateReadyStatus (by rw [hstatus]; exact hnode.unset)
  · rename_i hnone
    have hcurrent : Current isReady
        (guids.foldl addToWaitListInternal (ReadyEvent.nodeOf event, [], 0)).1 := by
      rw [hsame (Nat.eq_zero_of_not_pos hnone)]
      exact hnode
    exact hcurrent

theorem IsCurrent.removeFromWaitList {event : Event} (h : IsCurrent isReady event)
    (guid : Option ℕ) : IsCurrent isReady (ReadyEvent.removeFromWaitList guid event).1 := by
  cases event with
  | none => cases guid <;> exact h
  | some ren =>
    have hcurrent : Current isReady ren := h
    cases guid with
    | none => exact current_updateReadyStatus hcurrent.unset
    | some guid =>
      rw [ReadyEvent.removeFromWaitList]
      split
      · exact current_updateReadyStatus hcurrent.unset
      · exact h

theorem IsCurrent.removeFromList {event : Event} (h : IsCurrent isReady event) (guid : ℕ) :
    IsCurrent isReady (ReadyEvent.removeFromList guid event).1 := by
  cases event with
  | none => exact h
  | some ren =>
    have hcurrent : Current isReady ren := h
    exact current_updateReadyStatus hcurrent.unset

theorem IsCurrent.onReceive {event : Event} (h : IsCurrent isReady event) (sender : ℕ)
    (message : Message) : IsCurrent isReady (ReadyEvent.onReceive sender message event).1 := by
  cases event with
  | none => cases message <;> exact h
  | some ren =>
    have hcurrent : Current isReady ren := h
    cases message with
    | query =>
      refine hcurrent.congr rfl ?_
      show (ren.systemList.map _).map _ = _
      rw [List.map_map]
      refine List.map_congr_left fun rs _ => ?_
      rw [Function.comp_apply]
      split
      · exact sendReadyUpdate_received _ _ rs
      · rfl
    | update status =>
      rw [ReadyEvent.onReceive, onReadyEventPacketUpdate]
      split
      · exact h
      · split
        · exact h
        · exact current_updateReadyStatus hcurrent.unset

/-! ### All events -/

namespace EventList

variable {s : EventList} {call : EventCall}

def AllCurrent (s : EventList) : Prop :=
  ∀ eventId, IsCurrent (s.isReady eventId) (s.event eventId)

theorem AllCurrent.derived (h : s.AllCurrent) : s.Derived where
  allSet eventId ren hren := by
    have hcurrent := h eventId
    rw [hren] at hcurrent
    exact Current.allSet_iff hcurrent
  completed eventId := by
    have hcurrent := h eventId
    cases hevent : s.event eventId with
    | none => simp [isEventCompleted]
    | some ren =>
      rw [hevent] at hcurrent
      have hiff := Current.allSet_iff hcurrent
      rw [isEventCompleted, Bool.and_eq_true, beq_iff_eq, hiff]
      simp only [List.all_eq_true, beq_iff_eq, Option.some.injEq, exists_eq_left']
      constructor
      · rintro ⟨⟨hready, hunset⟩, hall⟩
        exact ⟨hready, fun rs hrs => ⟨hunset rs hrs, hall rs hrs⟩⟩
      · rintro ⟨hready, hall⟩
        exact ⟨⟨hready, fun rs hrs => (hall rs hrs).1⟩, fun rs hrs => (hall rs hrs).2⟩

theorem AllCurrent.onEvent (h : s.AllCurrent) {eventId : ℤ} {call : Event → Event × Sent}
    {isReady : Bool} (hcall : IsCurrent isReady (call (s.event eventId)).1) :
    AllCurrent { s.onEvent eventId call with
      isReady := Function.update s.isReady eventId isReady } := by
  intro other
  show IsCurrent (Function.update s.isReady eventId isReady other)
    (Function.update s.event eventId (call (s.event eventId)).1 other)
  by_cases heq : other = eventId
  · rw [heq, Function.update_self, Function.update_self]
    exact hcall
  · rw [Function.update_of_ne heq, Function.update_of_ne heq]
    exact h other

theorem AllCurrent.onEvent_same (h : s.AllCurrent) {eventId : ℤ} {call : Event → Event × Sent}
    (hcall : IsCurrent (s.isReady eventId) (call (s.event eventId)).1) :
    (s.onEvent eventId call).AllCurrent := by
  have hall := h.onEvent hcall
  rw [Function.update_eq_self] at hall
  exact hall

theorem AllCurrent.perform (h : s.AllCurrent) (hnot : ¬ s.CreatesReady call) :
    (s.perform call).AllCurrent := by
  cases call with
  | setEvent eventId isReady => exact h.onEvent ((h eventId).setEvent hnot)
  | deleteEvent eventId => exact @AllCurrent.onEvent _ h eventId ReadyEvent.deleteEvent false rfl
  | addToWaitList eventId guids => exact h.onEvent_same ((h eventId).addToWaitList guids)
  | removeFromWaitList eventId guid => exact h.onEvent_same ((h eventId).removeFromWaitList guid)
  | onReceive eventId sender message => exact h.onEvent_same ((h eventId).onReceive sender message)
  | onClosedConnection guid => exact fun eventId => (h eventId).removeFromList guid
  | onRakPeerShutdown => exact fun _ => rfl

theorem not_derived_of_createsReady (h : s.CreatesReady call) : ¬ (s.perform call).Derived := by
  intro hderived
  cases call with
  | setEvent eventId isReady =>
    obtain ⟨rfl, hnone⟩ := h
    have hevent : (s.perform (.setEvent eventId true)).event eventId = some ⟨.set, []⟩ := by
      show Function.update s.event eventId _ eventId = _
      rw [Function.update_self, hnone]
      rfl
    have hready : (s.perform (.setEvent eventId true)).isReady eventId = true :=
      Function.update_self _ _ _
    have hallSet := (hderived.allSet eventId _ hevent).mpr ⟨hready, fun rs hrs => by cases hrs⟩
    cases hallSet
  | _ => exact h

theorem run_concat (calls : List EventCall) (call : EventCall) :
    run (calls ++ [call]) = (run calls).perform call := by
  rw [run, List.foldl_append]
  rfl

theorem allCurrent_run {calls : List EventCall}
    (h : Transition.Along perform (fun s call => ¬ s.CreatesReady call) empty calls) :
    (run calls).AllCurrent :=
  h.invariant (fun _ => rfl) fun _ _ hcurrent hnot => hcurrent.perform hnot

/-- After every call of a run the status of every event follows from the current state if and only
if no call creates an event that is ready from the start. -/
theorem derived_iff (calls : List EventCall) :
    (∀ before, before <+: calls → (run before).Derived) ↔
      Transition.Along perform (fun s call => ¬ s.CreatesReady call) empty calls := by
  constructor
  · intro h
    rintro before call after rfl hcreates
    refine not_derived_of_createsReady hcreates ?_
    have hderived := h (before ++ [call]) ⟨after, by simp⟩
    rwa [run_concat] at hderived
  · rintro h before ⟨after, rfl⟩
    refine (allCurrent_run ?_).derived
    intro first call rest heq
    exact h first call (rest ++ after) (by rw [heq]; simp)

/-- A first call sets an event for which nobody is waited. -/
theorem first_event_not_allSet :
    ¬ ∀ calls, ∀ before, before <+: calls → (run before).Derived := by
  intro h
  have hderived := h [.setEvent 1 true] [.setEvent 1 true] (List.prefix_refl _)
  exact @not_derived_of_createsReady empty (.setEvent 1 true) ⟨rfl, rfl⟩ hderived

end EventList

end ReadyEvent

end SLikeNet
