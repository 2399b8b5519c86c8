import SLikeNet.ReadyEvent

/-! What a call on the event of one system means for another that is in its wait list. -/

namespace SLikeNet

namespace ReadyEvent

open ReadyEventNode

/-! ### What is on the way -/

def Message.status? : Message → Option Status
  | .query => none
  | .update status => some status

/-- The status in the last update of a queue. -/
def lastUpdate (messages : List Message) : Option Status :=
  LastReport.last Message.status? messages

theorem lastUpdate_append (xs ys : List Message) :
    lastUpdate (xs ++ ys) = (lastUpdate ys).or (lastUpdate xs) := LastReport.last_append xs ys

theorem lastUpdate_cons_update (status : Status) (messages : List Message) :
    lastUpdate (.update status :: messages) = (lastUpdate messages).or (some status) :=
  LastReport.last_cons _ messages

theorem lastUpdate_same {messages : List Message} {status : Status}
    (hall : ∀ m ∈ messages, m = .update status) (hne : messages ≠ []) :
    lastUpdate messages = some status :=
  LastReport.last_same (fun m hm => (congrArg Message.status? (hall m hm)).trans rfl) hne

theorem lastUpdate_queries {messages : List Message} (hall : ∀ m ∈ messages, m = .query) :
    lastUpdate messages = none :=
  LastReport.last_none fun m hm => (congrArg Message.status? (hall m hm)).trans rfl

theorem mem_toPeer {p : Bool} {sent : Sent} {m : Message} :
    m ∈ toPeer p sent ↔ (guidOf p, m) ∈ sent := LastReport.mem_sentTo

theorem toPeer_append (p : Bool) (sent sent' : Sent) :
    toPeer p (sent ++ sent') = toPeer p sent ++ toPeer p sent' := LastReport.sentTo_append _ _ _

/-! ### One call -/

/-- The entry of the system `p` in the wait list. -/
def record (p : Bool) (event : Event) : Option RemoteSystem := event.bind (find (guidOf p))

/-- What every system of the wait list was sent last is the status. -/
def Settled (event : Event) : Prop :=
  ∀ ren, event = some ren → ∀ rs ∈ ren.systemList, rs.lastSentStatus = ren.eventStatus

theorem sendReadyUpdate_guid (eventStatus : Status) (force : Bool) (rs : RemoteSystem) :
    (sendReadyUpdate eventStatus force rs).1.rakNetGuid = rs.rakNetGuid := by
  rw [sendReadyUpdate]
  split <;> rfl

theorem sendReadyUpdate_received (eventStatus : Status) (force : Bool) (rs : RemoteSystem) :
    (sendReadyUpdate eventStatus force rs).1.lastReceivedStatus = rs.lastReceivedStatus := by
  rw [sendReadyUpdate]
  split <;> rfl

theorem sendReadyUpdate_sent (eventStatus : Status) (force : Bool) (rs : RemoteSystem) :
    (sendReadyUpdate eventStatus force rs).1.lastSentStatus = eventStatus := by
  rw [sendReadyUpdate]
  split
  · rfl
  · rename_i hsame
    by_contra hne
    exact hsame (.inl fun heq => hne heq.symm)

theorem mem_sendReadyUpdate {eventStatus : Status} {force : Bool} {rs : RemoteSystem}
    {m : ℕ × Message} (h : m ∈ (sendReadyUpdate eventStatus force rs).2) :
    m = (rs.rakNetGuid, .update eventStatus) := by
  rw [sendReadyUpdate] at h
  split at h
  · exact List.mem_singleton.mp h
  · cases h

theorem find_map {f : RemoteSystem → RemoteSystem} (hf : ∀ rs, (f rs).rakNetGuid = rs.rakNetGuid)
    (guid : ℕ) (eventStatus eventStatus' : Status) (systemList : List RemoteSystem) :
    find guid ⟨eventStatus, systemList.map f⟩ = (find guid ⟨eventStatus', systemList⟩).map f := by
  rw [ReadyEventNode.find, ReadyEventNode.find, List.find?_map]
  congr 2
  funext rs
  exact congrArg (· == guid) (hf rs)

theorem mem_of_find {guid : ℕ} {ren : ReadyEventNode} {rs : RemoteSystem}
    (h : ren.find guid = some rs) : rs ∈ ren.systemList ∧ rs.rakNetGuid = guid := by
  refine ⟨List.mem_of_find?_eq_some h, ?_⟩
  simpa using List.find?_some h

section Update

variable (ren : ReadyEventNode)

theorem updateReadyStatus_settled : Settled (some (updateReadyStatus ren).1) := by
  rintro ren' ⟨⟩ rs hrs
  obtain ⟨rs', -, rfl⟩ := List.mem_map.mp hrs
  exact sendReadyUpdate_sent _ _ _

theorem updateReadyStatus_find (guid : ℕ) :
    (updateReadyStatus ren).1.find guid =
      (ren.find guid).map fun rs => (sendReadyUpdate ren.readyStatus false rs).1 :=
  find_map (sendReadyUpdate_guid _ _) guid _ _ _

theorem updateReadyStatus_sent (p : Bool) :
    lastUpdate (toPeer p (updateReadyStatus ren).2) = some ren.readyStatus ∨
      (lastUpdate (toPeer p (updateReadyStatus ren).2) = none ∧
        ∀ rs, ren.find (guidOf p) = some rs → rs.lastSentStatus = ren.readyStatus) := by
  have hall : ∀ m ∈ toPeer p (updateReadyStatus ren).2, m = .update ren.readyStatus := by
    intro m hm
    obtain ⟨rs, -, hsent⟩ := List.mem_flatMap.mp (mem_toPeer.mp hm)
    exact congrArg Prod.snd (mem_sendReadyUpdate hsent)
  by_cases hnil : toPeer p (updateReadyStatus ren).2 = []
  · right
    rw [hnil]
    refine ⟨rfl, ?_⟩
    intro rs hrs
    obtain ⟨hmem, hguid⟩ := mem_of_find hrs
    by_contra hne
    have hsent : (guidOf p, Message.update ren.readyStatus) ∈ (updateReadyStatus ren).2 := by
      apply List.mem_flatMap.mpr
      refine ⟨rs, hmem, ?_⟩
      change _ ∈ (sendReadyUpdate ren.readyStatus false rs).2
      rw [sendReadyUpdate, if_pos (.inl fun heq => hne heq.symm), hguid]
      exact List.mem_cons_self
    have hin := mem_toPeer.mpr hsent
    rw [hnil] at hin
    cases hin
  · exact .inl (lastUpdate_same hall hnil)

theorem readyStatus_eq_unset : ren.readyStatus = .unset ↔ ren.eventStatus = .unset := by
  obtain ⟨eventStatus, systemList⟩ := ren
  rw [readyStatus]
  cases eventStatus with
  | unset => simp
  | set => by_cases hunset : anyUnset ⟨.set, systemList⟩ = true <;> simp [hunset]
  | allSet => by_cases hunset : anyUnset ⟨.allSet, systemList⟩ = true <;> simp [hunset]

end Update

/-- What a call means for the other system. -/
structure Tells (p : Bool) (event event' : Event) (out : List Message) : Prop where
  settled : Settled event'
  sender : ∀ ren', event' = some ren' → (record p event').isSome →
    lastUpdate out = some ren'.eventStatus ∨
    (lastUpdate out = none ∧ (record p event).isSome ∧
      ∃ ren, event = some ren ∧ ren.eventStatus = ren'.eventStatus) ∨
    (lastUpdate out = none ∧ record p event = none ∧ ren'.eventStatus = .unset)
  receiver : ∀ rs', record p event' = some rs' →
    (∃ rs, record p event = some rs ∧ rs.lastReceivedStatus = rs'.lastReceivedStatus) ∨
    (record p event = none ∧ rs'.lastReceivedStatus = .unset ∧ .query ∈ out)

/-- The call does not add the other system to the wait list. -/
structure TellsKnown (p : Bool) (event event' : Event) (out : List Message) : Prop extends
    Tells p event event' out where
  known : (record p event').isSome → (record p event).isSome

theorem tells_none (p : Bool) (event : Event) (out : List Message) :
    TellsKnown p event none out := by
  refine ⟨⟨?_, ?_, ?_⟩, ?_⟩
  · intro ren h
    cases h
  · intro ren h
    cases h
  · intro rs h
    cases h
  · intro h
    cases h

theorem tells_empty (p : Bool) (event : Event) (eventStatus : Status) (out : List Message) :
    TellsKnown p event (some ⟨eventStatus, []⟩) out := by
  refine ⟨⟨?_, ?_, ?_⟩, ?_⟩
  · rintro ren ⟨⟩ rs hrs
    cases hrs
  · intro ren _ h
    cases h
  · intro rs h
    cases h
  · intro h
    cases h

theorem Settled.tells_self {event : Event} (h : Settled event) (p : Bool) {out : List Message}
    (hout : lastUpdate out = none) : TellsKnown p event event out :=
  ⟨⟨h, fun ren' hren' hsome => .inr (.inl ⟨hout, hsome, ren', hren', rfl⟩),
    fun rs' hrs' => .inl ⟨rs', hrs', rfl⟩⟩, fun hsome => hsome⟩

theorem Settled.tells_update {ren : ReadyEventNode} (h : Settled (some ren)) (p : Bool)
    {ren₁ : ReadyEventNode}
    (hfind : ∀ rs, ren₁.find (guidOf p) = some rs → ren.find (guidOf p) = some rs) :
    TellsKnown p (some ren) (some (updateReadyStatus ren₁).1)
      (toPeer p (updateReadyStatus ren₁).2) := by
  have hrecord : record p (some (updateReadyStatus ren₁).1) =
      (ren₁.find (guidOf p)).map fun rs => (sendReadyUpdate ren₁.readyStatus false rs).1 :=
    updateReadyStatus_find ren₁ (guidOf p)
  refine ⟨⟨updateReadyStatus_settled ren₁, ?_, ?_⟩, ?_⟩
  · rintro ren' ⟨⟩ hsome
    rw [hrecord, Option.isSome_map] at hsome
    obtain ⟨rs, hrs⟩ := Option.isSome_iff_exists.mp hsome
    have hold := hfind rs hrs
    rcases updateReadyStatus_sent ren₁ p with hsent | ⟨hnone, hsame⟩
    · exact .inl hsent
    · refine .inr (.inl ⟨hnone, Option.isSome_iff_exists.mpr ⟨rs, hold⟩, ren, rfl, ?_⟩)
      rw [← h ren rfl rs (mem_of_find hold).1, hsame rs hrs]
      rfl
  · intro rs' hrs'
    rw [hrecord] at hrs'
    obtain ⟨rs, hrs, rfl⟩ := Option.map_eq_some_iff.mp hrs'
    exact .inl ⟨rs, hfind rs hrs, (sendReadyUpdate_received _ _ _).symm⟩
  · intro hsome
    rw [hrecord, Option.isSome_map] at hsome
    obtain ⟨rs, hrs⟩ := Option.isSome_iff_exists.mp hsome
    exact Option.isSome_iff_exists.mpr ⟨rs, hfind rs hrs⟩

theorem Settled.tells_setEvent {event : Event} (h : Settled event) (p isReady : Bool) :
    TellsKnown p event (setEvent isReady event).1 (toPeer p (setEvent isReady event).2) := by
  cases event with
  | none => exact tells_empty p none _ _
  | some ren =>
    rw [setEvent]
    split
    · exact h.tells_self p rfl
    · split
      · exact h.tells_self p rfl
      · exact h.tells_update p fun rs hrs => hrs

theorem find_filter_ne {guid : ℕ} {ren : ReadyEventNode} {guid' : ℕ} {rs : RemoteSystem}
    (h : find guid' ⟨ren.eventStatus, ren.systemList.filter fun rs => rs.rakNetGuid ≠ guid⟩ =
      some rs) : ren.find guid' = some rs := by
  rw [ReadyEventNode.find, List.find?_filter] at h
  have hne : guid' ≠ guid := by
    intro heq
    have hrs := List.find?_some h
    simp [heq] at hrs
  rw [ReadyEventNode.find, ← h]
  congr 1
  funext rs'
  by_cases heq : rs'.rakNetGuid = guid'
  · simp [heq, hne]
  · simp [heq]

theorem Settled.tells_removeFromWaitList {event : Event} (h : Settled event) (p : Bool)
    (guid : Option ℕ) :
    TellsKnown p event (removeFromWaitList guid event).1
      (toPeer p (removeFromWaitList guid event).2) := by
  cases event with
  | none =>
    cases guid with
    | none => exact tells_none p none _
    | some guid => exact tells_none p none _
  | some ren =>
    cases guid with
    | none =>
      apply h.tells_update p
      intro rs hrs
      cases hrs
    | some guid =>
      rw [removeFromWaitList]
      split
      · exact h.tells_update p fun rs hrs => find_filter_ne hrs
      · exact h.tells_self p rfl

/-- What `AddToWaitList` has done after some of the guids. -/
structure Added (p : Bool) (ren : ReadyEventNode) (r : ReadyEventNode × Sent × ℕ) : Prop where
  eventStatus : r.1.eventStatus = ren.eventStatus
  queries : ∀ m ∈ toPeer p r.2.1, m = .query
  none_added : r.2.2 = 0 → r.1 = ren
  kept : r.1.find (guidOf p) = none → ren.find (guidOf p) = none
  find : ∀ rs, r.1.find (guidOf p) = some rs → ren.find (guidOf p) = some rs ∨
    (ren.find (guidOf p) = none ∧ rs.lastReceivedStatus = .unset ∧ rs.lastSentStatus = .unset ∧
      .query ∈ toPeer p r.2.1)

theorem Added.addToWaitListInternal {p : Bool} {ren : ReadyEventNode}
    {r : ReadyEventNode × Sent × ℕ} (h : Added p ren r) (guid : ℕ) :
    Added p ren (addToWaitListInternal r guid) := by
  rw [ReadyEventNode.addToWaitListInternal]
  split
  · exact h
  · rename_i hnew
    constructor
    · exact h.eventStatus
    · intro m hm
      rcases List.mem_append.mp (mem_toPeer.mp hm) with hm | hm
      · exact h.queries m (mem_toPeer.mpr hm)
      · exact congrArg Prod.snd (List.mem_singleton.mp hm)
    · intro hzero
      cases hzero
    · intro hnone
      have hold := List.find?_eq_none.mp hnone
      exact h.kept (List.find?_eq_none.mpr fun rs hrs => hold rs (List.mem_cons_of_mem _ hrs))
    · intro rs hrs
      by_cases heq : guid = guidOf p
      · right
        have hnone : r.1.find guid = none := by simpa using hnew
        have hfirst : (⟨guid, .unset, .unset⟩ : RemoteSystem) = rs := by
          rw [ReadyEventNode.find, List.find?_cons_of_pos (by simpa using heq)] at hrs
          exact Option.some.inj hrs
        rw [← hfirst]
        refine ⟨?_, rfl, rfl, ?_⟩
        · exact h.kept (heq ▸ hnone)
        · rw [toPeer_append]
          apply List.mem_append_right
          rw [heq]
          exact mem_toPeer.mpr List.mem_cons_self
      · rw [ReadyEventNode.find, List.find?_cons_of_neg (by simpa using heq)] at hrs
        rcases h.find rs hrs with hold | ⟨hnone, hreceived, hsent, hquery⟩
        · exact .inl hold
        · refine .inr ⟨hnone, hreceived, hsent, ?_⟩
          rw [toPeer_append]
          exact List.mem_append_left _ hquery

theorem added_foldl (p : Bool) (ren : ReadyEventNode) (guids : List ℕ) :
    Added p ren (guids.foldl addToWaitListInternal (ren, [], 0)) := by
  have hfold : ∀ (guids : List ℕ) (r : ReadyEventNode × Sent × ℕ), Added p ren r →
      Added p ren (guids.foldl addToWaitListInternal r) := by
    intro guids
    induction guids with
    | nil => exact fun r hr => hr
    | cons guid guids ih => exact fun r hr => ih _ (hr.addToWaitListInternal guid)
  apply hfold
  exact ⟨rfl, fun m hm => (List.not_mem_nil hm).elim, fun _ => rfl, fun h => h,
    fun rs hrs => .inl hrs⟩

theorem addToWaitList_eq (guids : List ℕ) (event : Event) :
    addToWaitList guids event =
      if 0 < (guids.foldl addToWaitListInternal (nodeOf event, [], 0)).2.2 then
        (some (updateReadyStatus (guids.foldl addToWaitListInternal (nodeOf event, [], 0)).1).1,
          (guids.foldl addToWaitListInternal (nodeOf event, [], 0)).2.1 ++
            (updateReadyStatus (guids.foldl addToWaitListInternal (nodeOf event, [], 0)).1).2)
      else
        (some (guids.foldl addToWaitListInternal (nodeOf event, [], 0)).1,
          (guids.foldl addToWaitListInternal (nodeOf event, [], 0)).2.1) := rfl

theorem record_nodeOf (p : Bool) (event : Event) :
    (nodeOf event).find (guidOf p) = record p event := by
  cases event with
  | none => rfl
  | some ren => rfl

theorem Settled.nodeOf {event : Event} (h : Settled event) :
    ∀ rs ∈ (nodeOf event).systemList, rs.lastSentStatus = (ReadyEvent.nodeOf event).eventStatus := by
  cases event with
  | none =>
    intro rs hrs
    cases hrs
  | some ren => exact h ren rfl

theorem Settled.tells_addToWaitList {event : Event} (h : Settled event) (p : Bool)
    (guids : List ℕ) :
    Tells p event (addToWaitList guids event).1 (toPeer p (addToWaitList guids event).2) ∧
      ∀ ren', (addToWaitList guids event).1 = some ren' →
        (ren'.eventStatus = .unset ↔ (ReadyEvent.nodeOf event).eventStatus = .unset) := by
  have hadded := added_foldl p (ReadyEvent.nodeOf event) guids
  rw [addToWaitList_eq]
  generalize guids.foldl addToWaitListInternal (ReadyEvent.nodeOf event, [], 0) = r at hadded ⊢
  obtain ⟨ren₁, sent, numAdded⟩ := r
  have hnone : lastUpdate (toPeer p sent) = none := lastUpdate_queries hadded.queries
  have hstatus : ren₁.eventStatus = (ReadyEvent.nodeOf event).eventStatus := hadded.eventStatus
  split
  · have hupdated : ren₁.readyStatus = .unset ↔ (ReadyEvent.nodeOf event).eventStatus = .unset := by
      rw [readyStatus_eq_unset, hstatus]
    have hrecord : record p (some (updateReadyStatus ren₁).1) =
        (ren₁.find (guidOf p)).map fun rs => (sendReadyUpdate ren₁.readyStatus false rs).1 :=
      updateReadyStatus_find ren₁ (guidOf p)
    refine ⟨⟨updateReadyStatus_settled ren₁, ?_, ?_⟩, ?_⟩
    · rintro ren' ⟨⟩ hsome
      rw [hrecord, Option.isSome_map] at hsome
      obtain ⟨rs, hrs⟩ := Option.isSome_iff_exists.mp hsome
      rw [toPeer_append, lastUpdate_append, hnone]
      rcases updateReadyStatus_sent ren₁ p with hsent | ⟨hunsent, hsame⟩
      · left
        rw [hsent]
        rfl
      · right
        rw [hunsent]
        rcases hadded.find rs hrs with hold | ⟨hnew, -, hunset, -⟩
        · left
          have hsettled := h.nodeOf rs (mem_of_find hold).1
          rw [hsame rs hrs] at hsettled
          rw [record_nodeOf] at hold
          cases event with
          | none => cases hold
          | some ren => exact ⟨rfl, Option.isSome_iff_exists.mpr ⟨rs, hold⟩, ren, rfl, hsettled.symm⟩
        · right
          rw [record_nodeOf] at hnew
          exact ⟨rfl, hnew, (hsame rs hrs).symm.trans hunset⟩
    · intro rs' hrs'
      rw [hrecord] at hrs'
      obtain ⟨rs, hrs, rfl⟩ := Option.map_eq_some_iff.mp hrs'
      rw [sendReadyUpdate_received]
      rcases hadded.find rs hrs with hold | ⟨hnew, hunset, -, hquery⟩
      · rw [record_nodeOf] at hold
        exact .inl ⟨rs, hold, rfl⟩
      · rw [record_nodeOf] at hnew
        rw [toPeer_append]
        exact .inr ⟨hnew, hunset, List.mem_append_left _ hquery⟩
    · rintro ren' ⟨⟩
      exact hupdated
  · rename_i hzero
    have hsame : ren₁ = ReadyEvent.nodeOf event := hadded.none_added (Nat.eq_zero_of_not_pos hzero)
    constructor
    · cases event with
      | none =>
        rw [hsame]
        exact (tells_empty p none _ _).toTells
      | some ren =>
        rw [hsame]
        exact (h.tells_self p hnone).toTells
    · rintro ren' ⟨⟩
      rw [hsame]

theorem forceReadyUpdate_find (guid guid' : ℕ) (ren : ReadyEventNode) :
    (ren.forceReadyUpdate guid').1.find guid = (ren.find guid).map fun rs =>
      if rs.rakNetGuid = guid' then (sendReadyUpdate ren.eventStatus true rs).1 else rs := by
  apply find_map
  intro rs
  split
  · exact sendReadyUpdate_guid _ _ _
  · rfl

theorem find_foldl_addToWaitListInternal {guid : ℕ} {guids : List ℕ} (hnot : guid ∉ guids)
    (r : ReadyEventNode × Sent × ℕ) :
    (guids.foldl addToWaitListInternal r).1.find guid = r.1.find guid := by
  induction guids generalizing r with
  | nil => rfl
  | cons first guids ih =>
    have hne : first ≠ guid := fun heq => hnot (heq ▸ List.mem_cons_self)
    have hone : (ReadyEventNode.addToWaitListInternal r first).1.find guid = r.1.find guid := by
      rw [ReadyEventNode.addToWaitListInternal]
      split
      · rfl
      · exact List.find?_cons_of_neg (by simpa using hne)
    rw [List.foldl_cons, ih (fun hmem => hnot (List.mem_cons_of_mem _ hmem)), hone]

theorem record_addToWaitList {p : Bool} {guids : List ℕ} (hnot : guidOf p ∉ guids)
    (event : Event) :
    (record p (addToWaitList guids event).1).isSome = (record p event).isSome := by
  have hfind := find_foldl_addToWaitListInternal hnot (ReadyEvent.nodeOf event, [], 0)
  rw [addToWaitList_eq, ← record_nodeOf p event, ← hfind]
  split
  · exact (congrArg Option.isSome (updateReadyStatus_find _ _)).trans (Option.isSome_map)
  · rfl

theorem forceReadyUpdate_sent {p : Bool} {ren : ReadyEventNode}
    (hsome : (ren.find (guidOf p)).isSome) (hne : ren.eventStatus ≠ .unset) :
    lastUpdate (toPeer p (ren.forceReadyUpdate (guidOf p)).2) = some ren.eventStatus := by
  obtain ⟨rs, hrs⟩ := Option.isSome_iff_exists.mp hsome
  obtain ⟨hmem, hguid⟩ := mem_of_find hrs
  apply lastUpdate_same
  · intro m hm
    obtain ⟨rs', -, hsent⟩ := List.mem_flatMap.mp (mem_toPeer.mp hm)
    split at hsent
    · exact congrArg Prod.snd (mem_sendReadyUpdate hsent)
    · cases hsent
  · apply List.ne_nil_of_mem (a := Message.update ren.eventStatus)
    apply mem_toPeer.mpr
    apply List.mem_flatMap.mpr
    refine ⟨rs, hmem, ?_⟩
    rw [if_pos hguid, sendReadyUpdate, if_pos (.inr ⟨rfl, hne⟩), hguid]
    exact List.mem_cons_self

theorem Settled.tells_onReadyEventQuery {event : Event} (h : Settled event) (p : Bool)
    (sender : ℕ) :
    TellsKnown p event (onReadyEventQuery sender event).1
      (toPeer p (onReadyEventQuery sender event).2) := by
  cases event with
  | none => exact tells_none p none _
  | some ren =>
    have hrecord : record p (onReadyEventQuery sender (some ren)).1 =
        (ren.find (guidOf p)).map fun rs =>
          if rs.rakNetGuid = sender then (sendReadyUpdate ren.eventStatus true rs).1 else rs :=
      forceReadyUpdate_find (guidOf p) sender ren
    have hall : ∀ m ∈ toPeer p (onReadyEventQuery sender (some ren)).2,
        m = .update ren.eventStatus := by
      intro m hm
      obtain ⟨rs', -, hsent⟩ := List.mem_flatMap.mp (mem_toPeer.mp hm)
      split at hsent
      · exact congrArg Prod.snd (mem_sendReadyUpdate hsent)
      · cases hsent
    refine ⟨⟨?_, ?_, ?_⟩, ?_⟩
    · rintro ren' ⟨⟩ rs hrs
      obtain ⟨rs', hrs', rfl⟩ := List.mem_map.mp hrs
      split
      · exact sendReadyUpdate_sent _ _ _
      · exact h ren rfl rs' hrs'
    · rintro ren' ⟨⟩ hsome
      rw [hrecord, Option.isSome_map] at hsome
      by_cases hnil : toPeer p (onReadyEventQuery sender (some ren)).2 = []
      · right
        left
        rw [hnil]
        exact ⟨rfl, hsome, ren, rfl, rfl⟩
      · exact .inl (lastUpdate_same hall hnil)
    · intro rs' hrs'
      rw [hrecord] at hrs'
      obtain ⟨rs, hrs, rfl⟩ := Option.map_eq_some_iff.mp hrs'
      refine .inl ⟨rs, hrs, ?_⟩
      split
      · exact (sendReadyUpdate_received _ _ _).symm
      · rfl
    · intro hsome
      rwa [hrecord, Option.isSome_map] at hsome

/-- The status of a system arrives. -/
def received (sender : ℕ) (status : Status) : Event → Event
  | none => none
  | some ren => some (ren.setReceived sender status)

theorem record_received (p : Bool) (sender : ℕ) (status : Status) (event : Event) :
    record p (received sender status event) = (record p event).map fun rs =>
      if rs.rakNetGuid = sender then { rs with lastReceivedStatus := status } else rs := by
  cases event with
  | none => rfl
  | some ren =>
    apply find_map
    intro rs
    split <;> rfl

theorem Settled.received {event : Event} (h : Settled event) (sender : ℕ) (status : Status) :
    Settled (received sender status event) := by
  cases event with
  | none => exact h
  | some ren =>
    rintro ren' ⟨⟩ rs hrs
    obtain ⟨rs', hrs', rfl⟩ := List.mem_map.mp hrs
    split
    · exact h ren rfl rs' hrs'
    · exact h ren rfl rs' hrs'

/-- The event `event'` is `event` after the status of `sender` has arrived. -/
structure Receives (p : Bool) (sender : ℕ) (status : Status) (event event' : Event) : Prop where
  settled : Settled event'
  eventStatus : ∀ ren', event' = some ren' →
    ∃ ren, event = some ren ∧ ren.eventStatus = ren'.eventStatus
  record : ∀ rs', record p event' = some rs' → ∃ rs, record p event = some rs ∧
    rs'.lastReceivedStatus = if sender = guidOf p then status else rs.lastReceivedStatus

theorem Settled.tells_packetUpdate {event : Event} (h : Settled event) (p : Bool) (sender : ℕ)
    (status : Status) :
    ∃ event', Receives p sender status event event' ∧
      TellsKnown p event' (onReadyEventPacketUpdate sender status event).1
        (toPeer p (onReadyEventPacketUpdate sender status event).2) := by
  cases event with
  | none =>
    refine ⟨none, ⟨h, ?_, ?_⟩, tells_none p none _⟩
    · intro ren' hren'
      cases hren'
    · intro rs' hrs'
      cases hrs'
  | some ren =>
    rw [onReadyEventPacketUpdate]
    cases hfind : ren.find sender with
    | none =>
      refine ⟨some ren, ⟨h, fun ren' hren' => ⟨ren', hren', rfl⟩, ?_⟩, h.tells_self p rfl⟩
      intro rs' hrs'
      refine ⟨rs', hrs', ?_⟩
      rw [if_neg]
      intro heq
      rw [heq] at hfind
      rw [ReadyEvent.record, Option.bind_some, hfind] at hrs'
      cases hrs'
    | some rs =>
      dsimp only
      split
      · rename_i hsame
        refine ⟨some ren, ⟨h, fun ren' hren' => ⟨ren', hren', rfl⟩, ?_⟩, h.tells_self p rfl⟩
        intro rs' hrs'
        refine ⟨rs', hrs', ?_⟩
        split
        · rename_i heq
          rw [heq] at hfind
          rw [ReadyEvent.record, Option.bind_some, hfind] at hrs'
          rw [← Option.some.inj hrs', hsame]
        · rfl
      · refine ⟨ReadyEvent.received sender status (some ren), ⟨h.received sender status, ?_, ?_⟩, ?_⟩
        · rintro ren' ⟨⟩
          exact ⟨ren, rfl, rfl⟩
        · intro rs' hrs'
          rw [record_received] at hrs'
          obtain ⟨rs₁, hrs₁, rfl⟩ := Option.map_eq_some_iff.mp hrs'
          have hguid : rs₁.rakNetGuid = guidOf p := (mem_of_find hrs₁).2
          refine ⟨rs₁, hrs₁, ?_⟩
          rw [hguid]
          by_cases heq : guidOf p = sender
          · rw [if_pos heq, if_pos heq.symm]
          · rw [if_neg heq, if_neg fun heq' => heq heq'.symm]
        · exact (h.received sender status).tells_update p fun rs' hrs' => hrs'

end ReadyEvent

end SLikeNet
