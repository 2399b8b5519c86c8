import SLikeNet.FullyConnectedMesh2
import Mathlib.Data.List.Nodup
import Mathlib.Data.List.Perm.Basic

/-! What a handler of `FullyConnectedMesh2` learns and tells, and that the host it publishes has
the smallest `FCM2Guid` it knows. -/

namespace SLikeNet

namespace FullyConnectedMesh2

/-- The `FCM2Guid` that a message tells. -/
def Message.fcmGuid? : Message → Option ℕ
  | .requestFCMGuid (some (_, fcmGuid)) => if fcmGuid = 0 then none else some fcmGuid
  | .informFCMGuid fcmGuid _ => if fcmGuid = 0 then none else some fcmGuid
  | _ => none

def lastGuid (messages : List Message) : Option ℕ := LastReport.last Message.fcmGuid? messages

theorem lastGuid_append (xs ys : List Message) :
    lastGuid (xs ++ ys) = (lastGuid ys).or (lastGuid xs) := LastReport.last_append xs ys

theorem lastGuid_cons (m : Message) (messages : List Message) :
    lastGuid (m :: messages) = (lastGuid messages).or m.fcmGuid? := LastReport.last_cons m messages

def guids (m : FullyConnectedMesh2) : List ℕ := m.fcm2ParticipantList.map (·.rakNetGuid)

theorem mem_guids {m : FullyConnectedMesh2} {participant : FCM2Participant}
    (h : participant ∈ m.fcm2ParticipantList) : participant.rakNetGuid ∈ m.guids :=
  List.mem_map_of_mem h

theorem hasParticipant_iff {m : FullyConnectedMesh2} {guid : ℕ} :
    m.hasParticipant guid = true ↔ guid ∈ m.guids := by
  rw [hasParticipant, List.any_eq_true, guids, List.mem_map]
  constructor
  · rintro ⟨participant, hmem, heq⟩
    exact ⟨participant, hmem, by simpa using heq⟩
  · rintro ⟨participant, hmem, heq⟩
    exact ⟨participant, hmem, by simpa using heq⟩

/-! ### The lowest `FCM2Guid` -/

/-- We ourselves and the participants. -/
def entries (ourGuid : ℕ) (m : FullyConnectedMesh2) : List FCM2Participant :=
  ⟨ourGuid, m.ourFCMGuid⟩ :: m.fcm2ParticipantList

/-- The system has the lowest `FCM2Guid` of those that are known. -/
def IsLowest (ourGuid : ℕ) (m : FullyConnectedMesh2) (guid : ℕ) : Prop :=
  ∃ lowest ∈ m.entries ourGuid, lowest.rakNetGuid = guid ∧ lowest.fcm2Guid ≠ 0 ∧
    ∀ entry ∈ m.entries ourGuid, entry.fcm2Guid ≠ 0 → lowest.fcm2Guid ≤ entry.fcm2Guid

theorem foldl_lowerHost (list : List FCM2Participant) {first : FCM2Participant}
    (hfirst : first.fcm2Guid ≠ 0) :
    list.foldl lowerHost first ∈ first :: list ∧ (list.foldl lowerHost first).fcm2Guid ≠ 0 ∧
      ∀ entry ∈ first :: list, entry.fcm2Guid ≠ 0 →
        (list.foldl lowerHost first).fcm2Guid ≤ entry.fcm2Guid := by
  induction list generalizing first with
  | nil =>
    refine ⟨List.mem_cons_self, hfirst, ?_⟩
    intro entry hentry _
    rw [List.mem_singleton.mp hentry]
    exact Nat.le_refl _
  | cons participant list ih =>
    rw [List.foldl_cons]
    by_cases hlower : participant.fcm2Guid ≠ 0 ∧ participant.fcm2Guid < first.fcm2Guid
    · rw [lowerHost, if_pos hlower]
      obtain ⟨hmem, hne, hle⟩ := ih hlower.1
      refine ⟨List.mem_cons_of_mem _ hmem, hne, ?_⟩
      intro entry hentry hentry'
      rcases List.mem_cons.mp hentry with rfl | hentry
      · have hstep := hle participant List.mem_cons_self hlower.1
        exact Nat.le_trans hstep (Nat.le_of_lt hlower.2)
      · exact hle entry hentry hentry'
    · rw [lowerHost, if_neg hlower]
      obtain ⟨hmem, hne, hle⟩ := ih hfirst
      refine ⟨?_, hne, ?_⟩
      · rcases List.mem_cons.mp hmem with hmem | hmem
        · rw [hmem]
          exact List.mem_cons_self
        · exact List.mem_cons_of_mem _ (List.mem_cons_of_mem _ hmem)
      · intro entry hentry hentry'
        rcases List.mem_cons.mp hentry with rfl | hentry
        · exact hle _ List.mem_cons_self hentry'
        · rcases List.mem_cons.mp hentry with rfl | hentry
          · have hstep := hle first List.mem_cons_self hfirst
            have hnot : ¬entry.fcm2Guid < first.fcm2Guid := fun hlt => hlower ⟨hentry', hlt⟩
            omega
          · exact hle entry (List.mem_cons_of_mem _ hentry) hentry'

theorem calculateHost_isLowest {ourGuid : ℕ} {m : FullyConnectedMesh2} (h : m.ourFCMGuid ≠ 0) :
    m.IsLowest ourGuid (m.calculateHost ourGuid).rakNetGuid := by
  have hown : (⟨ourGuid, m.ourFCMGuid⟩ : FCM2Participant).fcm2Guid ≠ 0 := h
  obtain ⟨hmem, hne, hle⟩ := foldl_lowerHost m.fcm2ParticipantList hown
  exact ⟨m.calculateHost ourGuid, hmem, rfl, hne, hle⟩

theorem participantListComplete_iff {m : FullyConnectedMesh2} :
    m.participantListComplete = true ↔
      ∀ participant ∈ m.fcm2ParticipantList, participant.fcm2Guid ≠ 0 := by
  rw [participantListComplete, List.all_eq_true]
  simp

/-- Once all `FCM2Guid` are known, the host is the system with the lowest one; what was published
is the host. -/
structure HostOk (ourGuid : ℕ) (m : FullyConnectedMesh2) : Prop where
  published : m.hostRakNetGuid = m.lastPushedHost
  lowest : m.ourFCMGuid ≠ 0 → m.participantListComplete = true → m.fcm2ParticipantList ≠ [] →
    ∃ guid, m.hostRakNetGuid = some guid ∧ m.IsLowest ourGuid guid

section Publish

variable {ourGuid : ℕ} {m : FullyConnectedMesh2}

theorem calculateAndPushHost_eq (ourGuid : ℕ) (m : FullyConnectedMesh2) :
    m.calculateAndPushHost ourGuid =
      if m.participantListComplete = true then
        if some (m.calculateHost ourGuid).rakNetGuid ≠ m.lastPushedHost then
          (m.setHost (m.calculateHost ourGuid).rakNetGuid).pushNewHost
            (m.calculateHost ourGuid).rakNetGuid
        else m
      else m := rfl

theorem calculateAndPushHost_ok (h : m.hostRakNetGuid = m.lastPushedHost) :
    (m.calculateAndPushHost ourGuid).HostOk ourGuid := by
  rw [calculateAndPushHost_eq]
  by_cases hcomplete : m.participantListComplete = true
  · rw [if_pos hcomplete]
    split
    · exact ⟨rfl, fun hown _ _ => ⟨_, rfl, calculateHost_isLowest hown⟩⟩
    · rename_i hsame
      have hpushed : some (m.calculateHost ourGuid).rakNetGuid = m.lastPushedHost :=
        Decidable.not_not.mp hsame
      refine ⟨h, fun hown _ _ => ⟨_, h.trans hpushed.symm, calculateHost_isLowest hown⟩⟩
  · rw [if_neg hcomplete]
    exact ⟨h, fun _ hcomplete' => absurd hcomplete' hcomplete⟩

theorem calculateAndPushHost_ourFCMGuid : (m.calculateAndPushHost ourGuid).ourFCMGuid =
    m.ourFCMGuid := by
  rw [calculateAndPushHost_eq]
  split
  · split <;> rfl
  · rfl

theorem calculateAndPushHost_list : (m.calculateAndPushHost ourGuid).fcm2ParticipantList =
    m.fcm2ParticipantList := by
  rw [calculateAndPushHost_eq]
  split
  · split <;> rfl
  · rfl

theorem HostOk.incrementTotalConnectionCount (h : m.HostOk ourGuid) (i : ℕ) :
    (m.incrementTotalConnectionCount i).HostOk ourGuid := by
  rw [FullyConnectedMesh2.incrementTotalConnectionCount]
  split
  · exact ⟨h.published, h.lowest⟩
  · exact h

theorem hostOk_of_incomplete (h : m.hostRakNetGuid = m.lastPushedHost)
    {participant : FCM2Participant} (hmem : participant ∈ m.fcm2ParticipantList)
    (hzero : participant.fcm2Guid = 0) : m.HostOk ourGuid := by
  refine ⟨h, ?_⟩
  intro _ hcomplete
  exact absurd hzero (participantListComplete_iff.mp hcomplete participant hmem)

end Publish

/-! ### Closed connections -/

theorem removeParticipantAt_perm {list : List FCM2Participant} {idx : ℕ}
    (hidx : idx < list.length) : (removeParticipantAt idx list).Perm (list.eraseIdx idx) := by
  rcases List.eq_nil_or_concat list with rfl | ⟨first, last, rfl⟩
  · exact absurd hidx (Nat.not_lt_zero _)
  · rw [List.concat_eq_append] at hidx ⊢
    rw [removeParticipantAt, List.getLast?_concat]
    rw [List.length_append, List.length_singleton] at hidx
    dsimp only
    by_cases hlt : idx < first.length
    · rw [List.set_append_left _ _ hlt, List.eraseIdx_append_of_lt_length hlt]
      rw [List.dropLast_concat]
      exact (List.set_perm_cons_eraseIdx hlt last).trans
        (List.perm_append_singleton last _).symm
    · obtain rfl : idx = first.length := by omega
      rw [List.set_append_right _ _ (Nat.le_refl _), List.eraseIdx_append_of_length_le
        (Nat.le_refl _)]
      simp

section Closed

variable {closed : ℕ} {m : FullyConnectedMesh2} (ourGuid : ℕ)

theorem onClosedConnection_list (hmem : closed ∈ m.guids) :
    ∃ participant, participant.rakNetGuid = closed ∧
      m.fcm2ParticipantList.Perm
        (participant :: (m.onClosedConnection ourGuid closed).fcm2ParticipantList) := by
  cases hidx : m.fcm2ParticipantList.findIdx? fun p => p.rakNetGuid == closed with
  | none =>
    obtain ⟨participant, hparticipant, heq⟩ := List.mem_map.mp hmem
    have hnot := List.findIdx?_eq_none_iff.mp hidx participant hparticipant
    simp [heq] at hnot
  | some idx =>
    obtain ⟨hlt, hguid, -⟩ := List.findIdx?_eq_some_iff_getElem.mp hidx
    have hlist : (m.onClosedConnection ourGuid closed).fcm2ParticipantList =
        removeParticipantAt idx m.fcm2ParticipantList := by
      rw [onClosedConnection, hidx]
      dsimp only
      split <;> rfl
    refine ⟨m.fcm2ParticipantList[idx], by simpa using hguid, ?_⟩
    rw [hlist]
    exact (List.getElem_cons_eraseIdx_perm hlt).symm.trans
      ((removeParticipantAt_perm hlt).symm.cons _)

theorem onClosedConnection_ourFCMGuid :
    (m.onClosedConnection ourGuid closed).ourFCMGuid = m.ourFCMGuid := by
  rw [onClosedConnection]
  split
  · rfl
  · split <;> rfl

theorem onClosedConnection_unknown (hmem : closed ∉ m.guids) :
    m.onClosedConnection ourGuid closed = m := by
  have hidx : (m.fcm2ParticipantList.findIdx? fun p => p.rakNetGuid == closed) = none := by
    apply List.findIdx?_eq_none_iff.mpr
    intro participant hparticipant
    have hne : participant.rakNetGuid ≠ closed := fun heq => hmem (heq ▸ mem_guids hparticipant)
    simpa using hne
  rw [onClosedConnection, hidx]

theorem onClosedConnection_other
    (hhost : ¬(some closed = m.hostRakNetGuid ∧ m.ourFCMGuid ≠ 0)) :
    (m.onClosedConnection ourGuid closed).hostRakNetGuid = m.hostRakNetGuid ∧
      (m.onClosedConnection ourGuid closed).lastPushedHost = m.lastPushedHost := by
  rw [onClosedConnection]
  split
  · exact ⟨rfl, rfl⟩
  · rw [if_neg hhost]
    exact ⟨rfl, rfl⟩

theorem onClosedConnection_host (hmem : closed ∈ m.guids)
    (hhost : some closed = m.hostRakNetGuid ∧ m.ourFCMGuid ≠ 0) :
    ∃ guid, (m.onClosedConnection ourGuid closed).hostRakNetGuid = some guid ∧
      (m.onClosedConnection ourGuid closed).lastPushedHost = some guid ∧
        ((m.onClosedConnection ourGuid closed).fcm2ParticipantList ≠ [] →
          (m.onClosedConnection ourGuid closed).IsLowest ourGuid guid) := by
  cases hidx : m.fcm2ParticipantList.findIdx? fun p => p.rakNetGuid == closed with
  | none =>
    obtain ⟨participant, hparticipant, heq⟩ := List.mem_map.mp hmem
    have hnot := List.findIdx?_eq_none_iff.mp hidx participant hparticipant
    simp [heq] at hnot
  | some idx =>
    have heq : m.onClosedConnection ourGuid closed =
        (m.withoutParticipant idx).replaceHost ourGuid := by
      rw [onClosedConnection, hidx]
      dsimp only
      rw [if_pos hhost]
    rw [heq]
    by_cases hnil : (m.withoutParticipant idx).fcm2ParticipantList = []
    · have hreplaced : (m.withoutParticipant idx).replaceHost ourGuid =
          ((m.withoutParticipant idx).setHost ourGuid).pushNewHost ourGuid := by
        rw [replaceHost, if_pos hnil]
      rw [hreplaced]
      exact ⟨ourGuid, rfl, rfl, fun hne => (hne hnil).elim⟩
    · have hreplaced : (m.withoutParticipant idx).replaceHost ourGuid =
          ((m.withoutParticipant idx).setHost
            ((m.withoutParticipant idx).calculateHost ourGuid).rakNetGuid).pushNewHost
              ((m.withoutParticipant idx).calculateHost ourGuid).rakNetGuid := by
        rw [replaceHost, if_neg hnil]
      rw [hreplaced]
      refine ⟨_, rfl, rfl, fun _ => ?_⟩
      exact calculateHost_isLowest (m := m.withoutParticipant idx) hhost.2

/-- Where a participant whose `FCM2Guid` is not known leaves, which is the only one of them, the
host is the right one before. -/
def CloseHandled (ourGuid closed : ℕ) (m : FullyConnectedMesh2) : Prop :=
  m.ourFCMGuid ≠ 0 → ⟨closed, 0⟩ ∈ m.fcm2ParticipantList →
    (∀ participant ∈ m.fcm2ParticipantList, participant.rakNetGuid ≠ closed →
      participant.fcm2Guid ≠ 0) →
    (∃ participant ∈ m.fcm2ParticipantList, participant.rakNetGuid ≠ closed) →
    m.hostRakNetGuid ≠ some closed → ∃ guid, m.hostRakNetGuid = some guid ∧ m.IsLowest ourGuid guid

variable {ourGuid}

theorem HostOk.onClosedConnection (h : m.HostOk ourGuid) (hnodup : m.guids.Nodup)
    (hhandled : m.CloseHandled ourGuid closed) :
    (m.onClosedConnection ourGuid closed).HostOk ourGuid := by
  by_cases hmem : closed ∈ m.guids
  · obtain ⟨participant, hguid, hperm⟩ := onClosedConnection_list ourGuid hmem
    by_cases hhost : some closed = m.hostRakNetGuid ∧ m.ourFCMGuid ≠ 0
    · obtain ⟨guid, hset, hpushed, hlowest⟩ := onClosedConnection_host ourGuid hmem hhost
      exact ⟨hset.trans hpushed.symm, fun _ _ hne => ⟨guid, hset, hlowest hne⟩⟩
    · obtain ⟨hset, hpushed⟩ := onClosedConnection_other ourGuid hhost
      refine ⟨hset.trans (h.published.trans hpushed.symm), ?_⟩
      intro hown hcomplete hne
      rw [onClosedConnection_ourFCMGuid] at hown
      have hrest := participantListComplete_iff.mp hcomplete
      have hnot : m.hostRakNetGuid ≠ some closed := fun heq => hhost ⟨heq.symm, hown⟩
      obtain ⟨hfresh, -⟩ := List.nodup_cons.mp ((hperm.map _).nodup_iff.mp hnodup)
      have hlowest : ∃ guid, m.hostRakNetGuid = some guid ∧ m.IsLowest ourGuid guid := by
        by_cases hzero : participant.fcm2Guid = 0
        · apply hhandled hown
          · rw [← hguid, ← hzero]
            exact hperm.mem_iff.mpr List.mem_cons_self
          · intro q hq hq'
            rcases List.mem_cons.mp (hperm.mem_iff.mp hq) with rfl | hq
            · exact (hq' hguid).elim
            · exact hrest q hq
          · obtain ⟨q, hq⟩ := List.exists_mem_of_ne_nil _ hne
            refine ⟨q, hperm.mem_iff.mpr (List.mem_cons_of_mem _ hq), ?_⟩
            intro heq
            have hq' := mem_guids hq
            rw [heq, ← hguid] at hq'
            rw [hguid] at hfresh hq'
            exact hfresh hq'
          · exact hnot
        · apply h.lowest hown
          · apply participantListComplete_iff.mpr
            intro q hq
            rcases List.mem_cons.mp (hperm.mem_iff.mp hq) with rfl | hq
            · exact hzero
            · exact hrest q hq
          · intro hnil
            rw [hnil] at hperm
            exact List.not_mem_nil (hperm.mem_iff.mpr List.mem_cons_self)
      obtain ⟨guid, hguid', lowest, hlowest, heq, hne', hle⟩ := hlowest
      refine ⟨guid, hset.trans hguid', lowest, ?_, heq, hne', ?_⟩
      · rcases List.mem_cons.mp hlowest with hus | hlowest
        · rw [hus, entries, onClosedConnection_ourFCMGuid]
          exact List.mem_cons_self
        · rcases List.mem_cons.mp (hperm.mem_iff.mp hlowest) with hgone | hlowest
          · rw [hgone, hguid] at heq
            exact (hnot (heq ▸ hguid')).elim
          · exact List.mem_cons_of_mem _ hlowest
      · intro entry hentry
        apply hle entry
        rw [entries, onClosedConnection_ourFCMGuid] at hentry
        rcases List.mem_cons.mp hentry with hus | hentry
        · rw [hus]
          exact List.mem_cons_self
        · exact List.mem_cons_of_mem _ (hperm.mem_iff.mpr (List.mem_cons_of_mem _ hentry))
  · rw [onClosedConnection_unknown ourGuid hmem]
    exact h

end Closed

/-! ### What is learned and told -/

/-- What `m` has become is told to the system `c`, or is what it was before and nothing else is
told. -/
def Tells (m m' : FullyConnectedMesh2) (sent : Sent) (c : ℕ) : Prop :=
  m'.ourFCMGuid ≠ 0 → lastGuid (LastReport.sentTo c sent) = some m'.ourFCMGuid ∨
    (lastGuid (LastReport.sentTo c sent) = none ∧ m.ourFCMGuid = m'.ourFCMGuid)

theorem lastGuid_sendOurFCMGuidToAll {m : FullyConnectedMesh2} {c : ℕ} (hmem : c ∈ m.guids)
    (hown : m.ourFCMGuid ≠ 0) :
    lastGuid (LastReport.sentTo c m.sendOurFCMGuidToAll) = some m.ourFCMGuid := by
  apply LastReport.last_same
  · intro message hmessage
    obtain ⟨participant, -, hsent⟩ := List.mem_flatMap.mp (LastReport.mem_sentTo.mp hmessage)
    have hinform : message = .informFCMGuid m.ourFCMGuid m.totalConnectionCount :=
      congrArg Prod.snd (List.mem_singleton.mp hsent)
    rw [hinform, Message.fcmGuid?, if_neg hown]
  · obtain ⟨participant, hparticipant, rfl⟩ := List.mem_map.mp hmem
    apply List.ne_nil_of_mem (a := Message.informFCMGuid m.ourFCMGuid m.totalConnectionCount)
    apply LastReport.mem_sentTo.mpr
    exact List.mem_flatMap.mpr ⟨participant, hparticipant, List.mem_cons_self⟩

theorem tells_none {m m' : FullyConnectedMesh2} {sent : Sent} {c : ℕ}
    (hsent : ∀ message ∈ sent, message.2.fcmGuid? = none) (hown : m.ourFCMGuid = m'.ourFCMGuid) :
    Tells m m' sent c :=
  fun _ => .inr ⟨LastReport.last_none fun _ hmessage =>
    hsent _ (LastReport.mem_sentTo.mp hmessage), hown⟩

section Learns

variable (m : FullyConnectedMesh2) (ourGuid sender : ℕ)

/-- The list after the `FCM2Guid` of a participant was learned. -/
def learned (fcmGuid : ℕ) : FullyConnectedMesh2 :=
  { m with fcm2ParticipantList := m.fcm2ParticipantList.map (setFCM2Guid sender fcmGuid) }

theorem addParticipantInternal_known {m : FullyConnectedMesh2} {sender : ℕ}
    (hmem : sender ∈ m.guids) (fcmGuid : ℕ) :
    m.addParticipantInternal ourGuid sender fcmGuid = (m.learned sender fcmGuid, []) := by
  rw [addParticipantInternal, if_pos (hasParticipant_iff.mpr hmem)]
  rfl

theorem learned_guids (fcmGuid : ℕ) : (m.learned sender fcmGuid).guids = m.guids := by
  rw [guids, guids, learned, List.map_map]
  apply List.map_congr_left
  intro participant _
  rw [Function.comp_apply, setFCM2Guid]
  split
  · rename_i heq
    exact heq.1.symm
  · rfl

theorem mem_learned_other {fcmGuid : ℕ} {participant : FCM2Participant}
    (hmem : participant ∈ m.fcm2ParticipantList) (hne : participant.rakNetGuid ≠ sender) :
    participant ∈ (m.learned sender fcmGuid).fcm2ParticipantList := by
  apply List.mem_map.mpr
  refine ⟨participant, hmem, ?_⟩
  rw [setFCM2Guid, if_neg fun h => hne h.1]

theorem mem_learned_zero {participant : FCM2Participant}
    (hmem : participant ∈ m.fcm2ParticipantList) :
    participant ∈ (m.learned sender 0).fcm2ParticipantList := by
  apply List.mem_map.mpr
  refine ⟨participant, hmem, ?_⟩
  rw [setFCM2Guid, if_neg fun h => h.2 rfl]

theorem mem_learned_sender {m : FullyConnectedMesh2} {sender : ℕ} (hmem : sender ∈ m.guids)
    {fcmGuid : ℕ} (hne : fcmGuid ≠ 0) :
    ⟨sender, fcmGuid⟩ ∈ (m.learned sender fcmGuid).fcm2ParticipantList := by
  obtain ⟨participant, hparticipant, heq⟩ := List.mem_map.mp hmem
  apply List.mem_map.mpr
  refine ⟨participant, hparticipant, ?_⟩
  rw [setFCM2Guid, if_pos ⟨heq, hne⟩]

end Learns

/-- What a system makes of a message of a participant. -/
structure Receives (ourGuid sender : ℕ) (fcmGuid : Option ℕ) (m m' : FullyConnectedMesh2)
    (sent : Sent) : Prop where
  guids : m'.guids = m.guids
  other : ∀ participant ∈ m.fcm2ParticipantList, participant.rakNetGuid ≠ sender →
    participant ∈ m'.fcm2ParticipantList
  told : ∀ guid, fcmGuid = some guid → ⟨sender, guid⟩ ∈ m'.fcm2ParticipantList
  untold : fcmGuid = none → ∀ participant ∈ m.fcm2ParticipantList,
    participant ∈ m'.fcm2ParticipantList
  ourFCMGuid : m.ourFCMGuid ≠ 0 → m'.ourFCMGuid = m.ourFCMGuid
  tells : ∀ c ∈ m.guids, Tells m m' sent c
  hostOk : m.HostOk ourGuid → m'.HostOk ourGuid

theorem learned_zero (m : FullyConnectedMesh2) (sender : ℕ) : m.learned sender 0 = m := by
  have hlist : m.fcm2ParticipantList.map (setFCM2Guid sender 0) = m.fcm2ParticipantList := by
    apply List.map_id''
    intro participant
    rw [setFCM2Guid, if_neg fun h => h.2 rfl]
  rw [learned, hlist]

section Increment

variable (i : ℕ) (m : FullyConnectedMesh2)

theorem increment_list : (m.incrementTotalConnectionCount i).fcm2ParticipantList =
    m.fcm2ParticipantList := by
  rw [incrementTotalConnectionCount]
  split <;> rfl

theorem increment_ourFCMGuid : (m.incrementTotalConnectionCount i).ourFCMGuid = m.ourFCMGuid := by
  rw [incrementTotalConnectionCount]
  split <;> rfl

theorem increment_host : (m.incrementTotalConnectionCount i).hostRakNetGuid =
    m.hostRakNetGuid := by
  rw [incrementTotalConnectionCount]
  split <;> rfl

theorem increment_lastPushedHost : (m.incrementTotalConnectionCount i).lastPushedHost =
    m.lastPushedHost := by
  rw [incrementTotalConnectionCount]
  split <;> rfl

end Increment

/-- Nothing but our `FCM2Guid` and the total connection count changes. -/
structure SameHost (m m' : FullyConnectedMesh2) : Prop where
  list : m'.fcm2ParticipantList = m.fcm2ParticipantList
  host : m'.hostRakNetGuid = m.hostRakNetGuid
  lastPushedHost : m'.lastPushedHost = m.lastPushedHost

theorem sameHost_increment (i : ℕ) (m : FullyConnectedMesh2) :
    SameHost m (m.incrementTotalConnectionCount i) :=
  ⟨increment_list i m, increment_host i m, increment_lastPushedHost i m⟩

theorem sameHost_assign (randomNumber : BitVec 32) (m : FullyConnectedMesh2) :
    SameHost m (m.assignOurFCMGuid randomNumber) := ⟨rfl, rfl, rfl⟩

theorem SameHost.trans {m m' m'' : FullyConnectedMesh2} (h : SameHost m m')
    (h' : SameHost m' m'') : SameHost m m'' :=
  ⟨h'.list.trans h.list, h'.host.trans h.host, h'.lastPushedHost.trans h.lastPushedHost⟩

theorem SameHost.guids {m m' : FullyConnectedMesh2} (h : SameHost m m') : m'.guids = m.guids := by
  rw [FullyConnectedMesh2.guids, FullyConnectedMesh2.guids, h.list]

section Handlers

variable {ourGuid sender : ℕ} {m : FullyConnectedMesh2}

theorem receives_of {fcmGuid : ℕ} {m' : FullyConnectedMesh2} {sent : Sent}
    (hmem : sender ∈ m.guids) (hsame : SameHost (m.learned sender fcmGuid) m')
    (hown : m.ourFCMGuid ≠ 0 → m'.ourFCMGuid = m.ourFCMGuid)
    (htells : ∀ c ∈ m.guids, Tells m m' sent c) :
    Receives ourGuid sender (if fcmGuid = 0 then none else some fcmGuid) m
      (m'.calculateAndPushHost ourGuid) sent := by
  constructor
  · rw [guids, calculateAndPushHost_list]
    exact hsame.guids.trans (learned_guids m sender fcmGuid)
  · rw [calculateAndPushHost_list, hsame.list]
    exact fun participant hparticipant hne => m.mem_learned_other sender hparticipant hne
  · intro guid hguid
    rw [calculateAndPushHost_list, hsame.list]
    by_cases hzero : fcmGuid = 0
    · rw [if_pos hzero] at hguid
      cases hguid
    · rw [if_neg hzero] at hguid
      rw [← Option.some.inj hguid]
      exact mem_learned_sender hmem hzero
  · intro hnone participant hparticipant
    rw [calculateAndPushHost_list, hsame.list]
    by_cases hzero : fcmGuid = 0
    · rw [hzero]
      exact m.mem_learned_zero sender hparticipant
    · rw [if_neg hzero] at hnone
      cases hnone
  · rw [calculateAndPushHost_ourFCMGuid]
    exact hown
  · intro c hc
    rw [Tells, calculateAndPushHost_ourFCMGuid]
    exact htells c hc
  · intro hok
    apply calculateAndPushHost_ok
    exact hsame.host.trans (hok.published.trans hsame.lastPushedHost.symm)

theorem receives_nothing {m' : FullyConnectedMesh2} {sent : Sent} (hmem : sender ∈ m.guids)
    (hsame : SameHost m m') (hown : m.ourFCMGuid ≠ 0 → m'.ourFCMGuid = m.ourFCMGuid)
    (htells : ∀ c ∈ m.guids, Tells m m' sent c) :
    Receives ourGuid sender none m (m'.calculateAndPushHost ourGuid) sent := by
  have hlearned : SameHost (m.learned sender 0) m' := by
    rw [learned_zero]
    exact hsame
  exact receives_of hmem hlearned hown htells

theorem tells_all {m' : FullyConnectedMesh2} (hguids : m'.guids = m.guids) {c : ℕ}
    (hc : c ∈ m.guids) : Tells m m' m'.sendOurFCMGuidToAll c :=
  fun hown => .inl (lastGuid_sendOurFCMGuidToAll (hguids ▸ hc) hown)

theorem tells_sender {m' : FullyConnectedMesh2} (hown : m.ourFCMGuid = m'.ourFCMGuid) {c : ℕ} :
    Tells m m' (m'.sendOurFCMGuid sender) c := by
  intro hne
  by_cases heq : sender = c
  · left
    rw [LastReport.sentTo, sendOurFCMGuid, List.filterMap_cons, if_pos heq, lastGuid,
      List.filterMap_nil, LastReport.last_cons, Message.fcmGuid?, if_neg hne]
    rfl
  · right
    refine ⟨?_, hown⟩
    rw [LastReport.sentTo, sendOurFCMGuid, List.filterMap_cons, if_neg heq]
    rfl

theorem answerRequest_spec (choices : Choices) (remote : Option (ℕ × ℕ)) :
    SameHost m (m.answerRequest choices sender remote).1 ∧
      (m.ourFCMGuid ≠ 0 → (m.answerRequest choices sender remote).1.ourFCMGuid = m.ourFCMGuid) ∧
        ∀ c ∈ m.guids, Tells m (m.answerRequest choices sender remote).1
          (m.answerRequest choices sender remote).2 c := by
  unfold answerRequest
  by_cases hown : m.ourFCMGuid = 0
  · rw [if_pos hown]
    cases remote with
    | none =>
      refine ⟨⟨rfl, rfl, rfl⟩, fun _ => rfl, fun c _ => tells_none ?_ rfl⟩
      intro message hmessage
      rw [List.mem_singleton.mp hmessage]
      rfl
    | some remote =>
      have hsame := (sameHost_increment ((remote.1 + 1) % 4294967296) m).trans
        (sameHost_assign choices.randomNumber _)
      exact ⟨hsame, fun hne => (hne hown).elim, fun c hc => tells_all hsame.guids hc⟩
  · rw [if_neg hown]
    cases remote with
    | none =>
      refine ⟨⟨rfl, rfl, rfl⟩, fun _ => rfl, fun c _ => tells_none ?_ rfl⟩
      intro message hmessage
      rw [List.mem_singleton.mp hmessage]
      rfl
    | some remote =>
      refine ⟨sameHost_increment remote.1 m, fun _ => increment_ourFCMGuid remote.1 m, ?_⟩
      exact fun c _ => tells_sender (increment_ourFCMGuid remote.1 m).symm

theorem fcmGuid?_request (remote : Option (ℕ × ℕ)) :
    (Message.requestFCMGuid remote).fcmGuid? =
      if theirFCMGuid remote = 0 then none else some (theirFCMGuid remote) := by
  cases remote with
  | none => rfl
  | some remote => rfl

theorem onRequestFCMGuid_receives (choices : Choices) (hmem : sender ∈ m.guids)
    (remote : Option (ℕ × ℕ)) :
    Receives ourGuid sender (Message.requestFCMGuid remote).fcmGuid? m
      (m.onRequestFCMGuid ourGuid choices sender remote).1
      (m.onRequestFCMGuid ourGuid choices sender remote).2 := by
  obtain ⟨hsame, hown, htells⟩ := @answerRequest_spec sender
    (m.learned sender (theirFCMGuid remote)) choices remote
  rw [fcmGuid?_request, onRequestFCMGuid]
  dsimp only
  rw [addParticipantInternal_known ourGuid hmem]
  apply receives_of hmem hsame hown
  intro c hc
  exact htells c ((learned_guids m sender _).symm ▸ hc)

theorem onRespondConnectionCount_receives (choices : Choices) (hmem : sender ∈ m.guids) (n : ℕ) :
    Receives ourGuid sender none m (m.onRespondConnectionCount ourGuid choices n).1
      (m.onRespondConnectionCount ourGuid choices n).2 := by
  have hincremented := sameHost_increment n m
  unfold onRespondConnectionCount
  dsimp only
  by_cases hown : m.ourFCMGuid = 0
  · rw [if_pos hown]
    have hsame := (hincremented.trans (sameHost_assign choices.randomNumber _)).trans
      (sameHost_increment 2 _)
    apply receives_nothing hmem hsame
    · exact fun hne => (hne hown).elim
    · exact fun c hc => tells_all hsame.guids hc
  · rw [if_neg hown]
    have hsame := hincremented.trans (sameHost_increment 2 _)
    have hown' := (increment_ourFCMGuid 2 (m.incrementTotalConnectionCount n)).trans
      (increment_ourFCMGuid n m)
    constructor
    · exact hsame.guids
    · rw [hsame.list]
      exact fun participant hparticipant _ => hparticipant
    · intro guid hguid
      cases hguid
    · rw [hsame.list]
      exact fun _ participant hparticipant => hparticipant
    · exact fun _ => hown'
    · intro c _
      apply tells_none _ hown'.symm
      intro message hmessage
      cases hmessage
    · exact fun hok => (hok.incrementTotalConnectionCount n).incrementTotalConnectionCount 2

theorem onInformFCMGuid_receives (choices : Choices) (hmem : sender ∈ m.guids)
    (fcmGuid totalConnectionCount : ℕ) :
    Receives ourGuid sender (Message.informFCMGuid fcmGuid totalConnectionCount).fcmGuid? m
      (m.onInformFCMGuid ourGuid choices sender fcmGuid totalConnectionCount).1
      (m.onInformFCMGuid ourGuid choices sender fcmGuid totalConnectionCount).2 := by
  have hincremented := sameHost_increment totalConnectionCount m
  have hmem' : sender ∈ (m.incrementTotalConnectionCount totalConnectionCount).guids :=
    hincremented.guids.symm ▸ hmem
  have hsame : SameHost (m.learned sender fcmGuid)
      ((m.incrementTotalConnectionCount totalConnectionCount).learned sender fcmGuid) := by
    refine ⟨?_, hincremented.host, hincremented.lastPushedHost⟩
    rw [learned, learned, hincremented.list]
  have hown : ((m.incrementTotalConnectionCount totalConnectionCount).learned sender
      fcmGuid).ourFCMGuid = m.ourFCMGuid := increment_ourFCMGuid totalConnectionCount m
  unfold onInformFCMGuid
  dsimp only
  rw [addParticipantInternal_known ourGuid hmem', if_pos (hasParticipant_iff.mpr hmem)]
  dsimp only
  generalize (m.incrementTotalConnectionCount totalConnectionCount).learned sender fcmGuid = m₁
    at hsame hown
  unfold assignIfNone
  by_cases hzero : m₁.ourFCMGuid = 0
  · rw [if_pos hzero]
    have hassigned := hsame.trans (sameHost_assign choices.randomNumber m₁)
    apply receives_of hmem hassigned
    · exact fun hne => (hne (hown ▸ hzero)).elim
    · intro c hc
      exact tells_all (hassigned.guids.trans (learned_guids m sender fcmGuid)) hc
  · rw [if_neg hzero]
    apply receives_of hmem hsame
    · exact fun _ => hown
    · intro c _
      apply tells_none _ hown.symm
      intro message hmessage
      cases hmessage

theorem onReceive_receives (choices : Choices) (hmem : sender ∈ m.guids) (message : Message) :
    Receives ourGuid sender message.fcmGuid? m (m.onReceive ourGuid choices sender message).1
      (m.onReceive ourGuid choices sender message).2 := by
  cases message with
  | requestFCMGuid remote => exact onRequestFCMGuid_receives choices hmem remote
  | respondConnectionCount n => exact onRespondConnectionCount_receives choices hmem n
  | informFCMGuid fcmGuid totalConnectionCount =>
    exact onInformFCMGuid_receives choices hmem fcmGuid totalConnectionCount
  | updateMinTotalConnectionCount newMin =>
    have hsame := sameHost_increment newMin m
    constructor
    · exact hsame.guids
    · intro participant hparticipant _
      exact hsame.list.symm ▸ hparticipant
    · intro guid hguid
      cases hguid
    · intro _ participant hparticipant
      exact hsame.list.symm ▸ hparticipant
    · exact fun _ => increment_ourFCMGuid newMin m
    · intro c _
      apply tells_none _ (increment_ourFCMGuid newMin m).symm
      intro message hmessage
      cases hmessage
    · exact fun hok => hok.incrementTotalConnectionCount newMin

end Handlers

end FullyConnectedMesh2

end SLikeNet
