import SLikeNet.ReplicaReferences
import SLikeNet.Library.GuardedRun

/-! Runs of `ReplicaManager3`. Two things break its records: a replica that a world has while it
knows another, and a replica that a connection with its own list is told to construct again. -/

namespace SLikeNet

namespace ConnectionRM3

def records (c : ConnectionRM3) : List LastSerializationResult :=
  c.constructedReplicaList ++ c.queryToConstructReplicaList ++ c.queryToSerializeReplicaList ++
    c.queryToDestructReplicaList

section Modes

variable {referenceIndex : ℕ → ℕ} {c : ConnectionRM3} {address replica3 : ℕ}

theorem queriesReplicas_moveToConstructed (i : ℕ) :
    (c.moveToConstructed referenceIndex i).queriesReplicas = c.queriesReplicas := by
  rw [moveToConstructed]
  split <;> rfl

theorem queriesReplicas_onDownloadExisting :
    (c.onDownloadExisting referenceIndex address replica3).queriesReplicas =
      c.queriesReplicas := by
  rw [onDownloadExisting]
  split
  · split
    · exact queriesReplicas_moveToConstructed _
    · rfl
  · rfl

theorem queriesReplicas_onDownloadFromThisSystem :
    (c.onDownloadFromThisSystem referenceIndex address replica3).queriesReplicas =
      c.queriesReplicas := by
  have hquery : (c.downloadedToQuery ⟨address, replica3⟩).queriesReplicas = c.queriesReplicas := by
    rw [downloadedToQuery]
    split <;> rfl
  rw [onDownloadFromThisSystem]
  split
  · exact hquery
  · exact hquery

theorem queriesReplicas_onDownloadFromOtherSystem :
    (c.onDownloadFromOtherSystem address replica3).queriesReplicas = c.queriesReplicas := by
  rw [onDownloadFromOtherSystem]
  split
  · split <;> rfl
  · rfl

end Modes

variable {referenced : ℕ → Prop} {referenceIndex : ℕ → ℕ} {c : ConnectionRM3}

/-- Unlike `OnConstructToThisConnection`, `OnDownloadFromThisSystem` adds nothing where the record
was not taken. -/
theorem onDownloadFromThisSystem_known (h : c.Sound referenced referenceIndex)
    {address replica3 : ℕ} (hmode : c.queriesReplicas = false)
    (hmem : replica3 ∈ replicasOf c.constructedReplicaList) :
    c.onDownloadFromThisSystem referenceIndex address replica3 = c := by
  obtain ⟨lsr, hlsr, heq⟩ := List.mem_map.mp hmem
  have hquery : c.downloadedToQuery ⟨address, replica3⟩ = c := by
    rw [downloadedToQuery, hmode]
    rfl
  have hknown := @insertConstructed_known _ _ h.sorted ⟨address, replica3⟩ _ hlsr
    (by rw [heq])
  rw [onDownloadFromThisSystem, hquery]
  rw [hknown]
  rfl

theorem Sound.referenceAll (h : c.Sound referenced referenceIndex)
    (hmode : c.queriesReplicas = true) (address : ℕ) {replicas : List ℕ}
    (href : ∀ r ∈ replicas, referenced r)
    (hnew : (replicasOf (c.constructedReplicaList ++ c.queryToConstructReplicaList) ++
      replicas).Nodup) :
    (ReplicaManager3.referenceAll address replicas c).Sound referenced referenceIndex := by
  induction replicas generalizing address c with
  | nil => exact h
  | cons r replicas ih =>
    have hfresh : r ∉ replicasOf (c.constructedReplicaList ++ c.queryToConstructReplicaList) :=
      fun hin => (List.nodup_append.mp hnew).2.2 _ hin _ List.mem_cons_self rfl
    have hsound : (c.onLocalReference address r).Sound referenced referenceIndex :=
      h.onLocalReference hmode (href r List.mem_cons_self) hfresh
    apply ih hsound hmode (address + 1) fun r' hr' => href r' (List.mem_cons_of_mem _ hr')
    have hlists : replicasOf ((c.onLocalReference address r).constructedReplicaList ++
        (c.onLocalReference address r).queryToConstructReplicaList) =
          replicasOf (c.constructedReplicaList ++ c.queryToConstructReplicaList) ++ [r] := by
      rw [ConnectionRM3.onLocalReference, ← List.append_assoc, replicasOf, List.map_append]
      rfl
    rw [hlists, List.append_assoc]
    exact hnew

end ConnectionRM3

namespace ReplicaManager3

/-- A condition on every entry of a message and the state before it. -/
def EachEntry (allowed : ReplicaManager3 → ConstructionEntry → Prop) (worldId index : ℕ) :
    ReplicaManager3 × List ℕ → List ConstructionEntry → Prop
  | _, [] => True
  | r, entry :: entries =>
    allowed r.1 entry ∧ EachEntry allowed worldId index (constructEntry worldId index r entry)
      entries

/-- What the replicas of an operation are: those that the user has not deleted, and for a network
id those that have one. -/
def Possible (s : ReplicaManager3) : Operation → Prop
  | .reference r _ => (s.replica r).alive = true
  | .dereference r _ => (s.replica r).alive = true
  | .destroy r => (s.replica r).alive = true
  | .autoConstructByQuery _ _ answers => ∀ r ∈ answers.newReplicas, (s.replica r).alive = true
  | .onConstruction worldId index constructions _ =>
    EachEntry (fun s entry => ∀ r, entry.existingReplica = some r →
      (s.replica r).alive = true ∧ (s.replica r).hasNetworkIDManager = true)
      worldId index (s, []) constructions
  | _ => True

/-- A replica of the list that a connection gives is one of its world, and not constructed. -/
def ListHandled (s : ReplicaManager3) (worldId index : ℕ) (replicas : List ℕ) : Prop :=
  ∀ c, (s.connectionList worldId)[index]? = some c → c.queriesReplicas = false →
    (∀ r ∈ replicas, r ∈ s.userReplicaList worldId) ∧
      (replicasOf c.constructedReplicaList ++ replicas).Nodup

/-- The constructor of a replica that a message makes has set the world `0`. -/
def EntryHandled (worldId index : ℕ) (s : ReplicaManager3) (entry : ConstructionEntry) : Prop :=
  (entry.registers = true → worldId = 0 ∧ s.nextReferenceIndex < unassignedReferenceIndex) ∧
    s.ListHandled worldId index entry.existing.toList

/-- A replica is referenced by one world, the indices do not run out and the list of a connection
has no replica again. -/
def Handled (s : ReplicaManager3) : Operation → Prop
  | .reference r worldId =>
    (∀ worldId', r ∈ s.userReplicaList worldId' → worldId' = worldId) ∧
      (s.referenceIndex r = unassignedReferenceIndex →
        s.nextReferenceIndex < unassignedReferenceIndex)
  | .autoConstructByQuery worldId index answers => s.ListHandled worldId index answers.newReplicas
  | .onConstruction worldId index constructions _ =>
    EachEntry (EntryHandled worldId index) worldId index (s, []) constructions
  | _ => True

def Reachable (allowed : ReplicaManager3 → Operation → Prop) : ReplicaManager3 → Prop :=
  GuardedRun.Reachable perform (fun s op => s.Possible op ∧ allowed s op) start

variable {s : ReplicaManager3} {pending : List ℕ}

/-! ### One operation -/

theorem sound_announced_nil {worldId : ℕ} {queriesReplicas : Bool} {c : ConnectionRM3} :
    c.Sound (s.Announced [] worldId queriesReplicas) s.referenceIndex ↔
      c.Sound (fun r => r ∈ s.userReplicaList worldId) s.referenceIndex := by
  constructor
  · exact fun h => h.imp fun r hr => hr.1
  · exact fun h => h.imp fun r hr => ⟨hr, fun _ => List.not_mem_nil⟩

theorem Sound.updateConnection (h : s.Sound []) {worldId index : ℕ}
    {f : ConnectionRM3 → ConnectionRM3}
    (hf : ∀ c, (s.connectionList worldId)[index]? = some c →
      c.Sound (fun r => r ∈ s.userReplicaList worldId) s.referenceIndex →
        (f c).Sound (fun r => r ∈ s.userReplicaList worldId) s.referenceIndex) :
    (s.updateConnection worldId index f).Sound [] := by
  apply h.updateConnections fun r hr => hr
  intro j c hj hc
  rw [sound_announced_nil] at hc ⊢
  split
  · rename_i heq
    exact hf c (heq ▸ hj) hc
  · exact hc

theorem Sound.setWorldId (h : s.Sound pending) {r worldId : ℕ}
    (honly : ∀ worldId', r ∈ s.userReplicaList worldId' → worldId' = worldId) :
    (s.setWorldId r worldId).Sound pending := by
  apply h.setReplica
  · rfl
  · exact fun halive => halive
  · intro worldId' hr
    have hold := h.registered worldId' r hr
    exact ⟨hold.alive, (honly worldId' hr).symm, hold.hasReplicaManager, hold.hasNetworkIDManager⟩

theorem replica_setWorldId (r worldId : ℕ) :
    (s.setWorldId r worldId).replica r = { s.replica r with worldId := worldId } := by
  rw [ReplicaManager3.setWorldId, replica_setReplica, if_pos rfl]

theorem setWorldId_referenceInternal {r worldId : ℕ} (hnew : r ∉ s.userReplicaList worldId) :
    (s.referenceInternal r worldId).setWorldId r worldId =
      (s.setWorldId r worldId).referenceInternal r worldId := by
  have hnew' : r ∉ (s.setWorldId r worldId).userReplicaList worldId := hnew
  have hindex : (s.setWorldId r worldId).referenceIndex = s.referenceIndex :=
    referenceIndex_setReplica rfl
  rw [ReplicaManager3.setWorldId, replica_referenceInternal hnew, if_pos rfl,
    ReplicaManager3.referenceInternal, ReplicaManager3.referenceInternal, if_neg hnew,
    if_neg hnew', assignedIndex, nextIndex, assignedIndex, nextIndex, hindex, replica_setWorldId]
  simp only [ReplicaManager3.setReplica, ReplicaManager3.setWorldId, Function.update_idem]
  rfl

theorem Sound.announce {r worldId : ℕ} {f : ℕ → ConnectionRM3 → ConnectionRM3}
    (h : s.Sound (r :: pending)) (hr : r ∈ s.userReplicaList worldId) (hnew : r ∉ pending)
    (hmodes : ∀ j c, (f j c).queriesReplicas = c.queriesReplicas)
    (hf : ∀ j c, c.Sound (s.Announced pending worldId c.queriesReplicas) s.referenceIndex →
      s.Announced pending worldId c.queriesReplicas r →
        (c.queriesReplicas = true →
          r ∉ replicasOf (c.constructedReplicaList ++ c.queryToConstructReplicaList)) →
          (f j c).Sound (s.Announced pending worldId c.queriesReplicas) s.referenceIndex) :
    (s.updateConnections worldId f).Sound pending := by
  apply h.updateConnections fun r' hr' => List.mem_cons_of_mem _ hr'
  intro j c _ hc
  rw [hmodes]
  apply hf j c
  · exact hc.imp fun r' hr' =>
      ⟨hr'.1, fun hmode hmem => hr'.2 hmode (List.mem_cons_of_mem _ hmem)⟩
  · exact ⟨hr, fun _ => hnew⟩
  · intro hmode hmem
    obtain ⟨lsr, hlsr, heq⟩ := List.mem_map.mp hmem
    apply (hc.referenced lsr hlsr).2 hmode
    rw [heq]
    exact List.mem_cons_self

theorem Sound.reference (h : s.Sound []) {r worldId : ℕ} (halive : (s.replica r).alive = true)
    (honly : ∀ worldId', r ∈ s.userReplicaList worldId' → worldId' = worldId)
    (hlimit : s.referenceIndex r = unassignedReferenceIndex →
      s.nextReferenceIndex < unassignedReferenceIndex) :
    (s.reference r worldId).Sound [] := by
  have hset := h.setWorldId honly
  have hindex : (s.setWorldId r worldId).referenceIndex = s.referenceIndex :=
    referenceIndex_setReplica rfl
  rw [ReplicaManager3.reference]
  by_cases hmem : r ∈ s.userReplicaList worldId
  · have hsame : s.referenceInternal r worldId = s := by
      rw [ReplicaManager3.referenceInternal, if_pos hmem]
    rw [if_pos hmem, hsame]
    exact hset
  · rw [if_neg hmem, setWorldId_referenceInternal hmem]
    have hregistered : ((s.setWorldId r worldId).referenceInternal r worldId).Sound [r] := by
      apply hset.referenceInternal
      · rw [replica_setWorldId]
        exact halive
      · rw [replica_setWorldId]
      · intro worldId' hr
        have hw := honly worldId' hr
        rw [hw] at hr
        exact hmem hr
      · rw [hindex]
        exact hlimit
    apply hregistered.announce
    · have hmem' : r ∉ (s.setWorldId r worldId).userReplicaList worldId := hmem
      rw [userReplicaList_referenceInternal hmem', if_pos rfl]
      exact List.mem_append_right _ List.mem_cons_self
    · exact List.not_mem_nil
    · intro j c
      split <;> rfl
    · intro j c hc hannounced hnone
      split
      · rename_i hmode
        exact hc.onLocalReference hmode hannounced (hnone hmode)
      · exact hc

theorem Sound.pushedConnection (h : s.Sound []) (worldId : ℕ)
    (constructionMode : ConstructionMode) :
    (s.pushedConnection worldId constructionMode).Sound (fun r => r ∈ s.userReplicaList worldId)
      s.referenceIndex := by
  rw [ReplicaManager3.pushedConnection]
  split
  · rename_i hmode
    exact (ConnectionRM3.sound_new constructionMode).referenceAll hmode _ (fun r hr => hr)
      (h.nodup worldId)
  · exact ConnectionRM3.sound_new constructionMode

theorem worldsArray_pushConnection (worldId : ℕ) (constructionMode : ConstructionMode) :
    (s.pushConnection worldId constructionMode).worldsArray =
      Function.update s.worldsArray worldId ⟨s.userReplicaList worldId,
        s.connectionList worldId ++ [s.pushedConnection worldId constructionMode]⟩ := rfl

theorem Sound.pushConnection (h : s.Sound []) (worldId : ℕ)
    (constructionMode : ConstructionMode) :
    (s.pushConnection worldId constructionMode).Sound [] := by
  have huser : ∀ worldId', (s.pushConnection worldId constructionMode).userReplicaList worldId' =
      s.userReplicaList worldId' := by
    intro worldId'
    rw [userReplicaList, worldsArray_pushConnection]
    by_cases heq : worldId' = worldId
    · rw [heq, Function.update_self]
    · rw [Function.update_of_ne heq]
      rfl
  constructor
  · exact h.allocated
  · intro worldId' r hr
    rw [huser] at hr
    obtain ⟨ha, hw, hm, hn, hi⟩ := h.registered worldId' r hr
    exact ⟨ha, hw, hm, hn, hi⟩
  · exact h.indices
  · exact h.index_inj
  · exact h.limit
  · intro worldId'
    rw [huser]
    exact h.nodup worldId'
  · intro worldId' c hc
    rw [sound_announced_nil, huser]
    rw [connectionList, worldsArray_pushConnection] at hc
    by_cases heq : worldId' = worldId
    · rw [heq, Function.update_self] at hc
      rw [heq]
      rcases List.mem_append.mp hc with hc | hc
      · exact sound_announced_nil.mp (h.connections worldId c hc)
      · rw [List.mem_singleton.mp hc]
        exact h.pushedConnection worldId constructionMode
    · rw [Function.update_of_ne heq] at hc
      exact sound_announced_nil.mp (h.connections worldId' c hc)

theorem Sound.autoConstructByQuery (h : s.Sound []) {worldId index : ℕ}
    {answers : ConnectionRM3.QueryAnswers}
    (hlist : s.ListHandled worldId index answers.newReplicas) :
    (s.autoConstructByQuery worldId index answers).Sound [] := by
  have hown : ConnectionRM3.OwnIndices (fun r => r ∈ s.userReplicaList worldId)
      s.referenceIndex :=
    fun r hr r' heq => h.index_inj r (h.registered worldId r hr).referenceIndex r' heq
  have hupdated : (s.updateConnection worldId index (ConnectionRM3.autoConstructByQuery
      s.referenceIndex s.nextAddress answers)).Sound [] :=
    h.updateConnection fun c hc hsound => hsound.autoConstructByQuery hown (hlist c hc)
  exact hupdated.nextAddress _

theorem Sound.onNeverSerialize (h : s.Sound []) (worldId index : ℕ)
    (lsr : LastSerializationResult) : (s.onNeverSerialize worldId index lsr).Sound [] :=
  h.updateConnection fun _ _ hsound => hsound.onNeverSerialize lsr

/-! ### `OnConstruction` -/

/-- In the first loop over the entries: `pending` are the replicas that were registered. -/
structure Constructing (worldId : ℕ) (r : ReplicaManager3 × List ℕ) : Prop where
  sound : r.1.Sound r.2
  nodup : r.2.Nodup
  registered : ∀ r' ∈ r.2, r' ∈ r.1.userReplicaList worldId

theorem Sound.downloadExisting (h : s.Sound pending) {worldId index r : ℕ}
    (hlist : s.ListHandled worldId index [r]) :
    ((s.setReplica r { s.replica r with hasReplicaManager := true }).updateConnection worldId index
      (ConnectionRM3.onDownloadExisting s.referenceIndex s.nextAddress r)).Sound pending := by
  have hset : (s.setReplica r { s.replica r with hasReplicaManager := true }).Sound pending := by
    apply h.setReplica
    · rfl
    · exact fun halive => halive
    · intro worldId' hr
      have hold := h.registered worldId' r hr
      exact ⟨hold.alive, hold.worldId, rfl, hold.hasNetworkIDManager⟩
  have hindex : (s.setReplica r { s.replica r with hasReplicaManager := true }).referenceIndex =
      s.referenceIndex := referenceIndex_setReplica rfl
  apply hset.updateConnections fun r' hr' => hr'
  intro j c hj hc
  split
  · rename_i heq
    rw [ConnectionRM3.queriesReplicas_onDownloadExisting]
    rw [hindex] at hc ⊢
    apply hc.onDownloadExisting
    · exact h.ownIndices worldId c.queriesReplicas
    · intro hmode
      obtain ⟨hmem, hnodup⟩ := hlist c (heq ▸ hj) hmode
      refine ⟨⟨hmem r List.mem_cons_self, ?_⟩, ?_⟩
      · rw [hmode]
        intro hfalse
        cases hfalse
      · exact fun hin => (List.nodup_append.mp hnodup).2.2 _ hin _ List.mem_cons_self rfl
  · exact hc

theorem userReplicaList_updateConnection (worldId index : ℕ) (f : ConnectionRM3 → ConnectionRM3)
    (worldId' : ℕ) :
    (s.updateConnection worldId index f).userReplicaList worldId' = s.userReplicaList worldId' :=
  userReplicaList_updateConnections _ _ _

theorem Sound.adoptReplica (h : s.Sound pending) :
    (s.newReplica.adoptReplica s.nextReplica).Sound pending := by
  apply h.newReplica.setReplica
  · rfl
  · exact fun halive => halive
  · intro worldId hr
    exact absurd (h.lt_nextReplica hr) (Nat.lt_irrefl _)

theorem replica_adoptReplica :
    (s.newReplica.adoptReplica s.nextReplica).replica s.nextReplica =
      { Replica3.new with hasReplicaManager := true, hasNetworkIDManager := true } := by
  rw [ReplicaManager3.adoptReplica, replica_setReplica, if_pos rfl, replica_newReplica, if_pos rfl]

theorem Sound.mem_destroy (h : s.Sound pending) {r r' worldId : ℕ} (hne : r' ≠ r)
    (hr' : r' ∈ s.userReplicaList worldId) : r' ∈ (s.destroy r).userReplicaList worldId := by
  have hleft : r' ∈ (s.leaveWorld r).userReplicaList worldId := by
    rw [ReplicaManager3.leaveWorld]
    split
    · exact h.mem_dereference.mpr ⟨hr', fun _ => hne⟩
    · exact hr'
  exact hleft

theorem Constructing.constructEntry {worldId index : ℕ} {r : ReplicaManager3 × List ℕ}
    {entry : ConstructionEntry} (h : Constructing worldId r)
    (hentry : EntryHandled worldId index r.1 entry) :
    Constructing worldId (constructEntry worldId index r entry) := by
  obtain ⟨s, pending⟩ := r
  obtain ⟨actuallyCreateObject, existingReplica, allocated, accepted, deallocated⟩ := entry
  obtain ⟨hsound, hnodup, hregistered⟩ := h
  obtain ⟨hregisters, hlist⟩ := hentry
  cases actuallyCreateObject with
  | false => exact ⟨hsound, hnodup, hregistered⟩
  | true =>
    cases existingReplica with
    | some r =>
      refine ⟨hsound.downloadExisting hlist, hnodup, ?_⟩
      intro r' hr'
      exact (userReplicaList_updateConnection _ _ _ _).symm ▸ hregistered r' hr'
    | none =>
      have hadopted := hsound.adoptReplica
      have hbelow : ∀ r' ∈ pending, r' ≠ s.nextReplica :=
        fun r' hr' => Nat.ne_of_lt (hsound.lt_nextReplica (hregistered r' hr'))
      cases allocated with
      | false => exact ⟨hsound, hnodup, hregistered⟩
      | true =>
        cases accepted with
        | true =>
          obtain ⟨rfl, hlimit⟩ := hregisters rfl
          have hnone : ∀ worldId', s.nextReplica ∉ s.userReplicaList worldId' :=
            fun worldId' hr => absurd (hsound.lt_nextReplica hr) (Nat.lt_irrefl _)
          refine ⟨?_, ?_, ?_⟩
          · apply hadopted.referenceInternal
            · rw [replica_adoptReplica]
              rfl
            · rw [replica_adoptReplica]
              rfl
            · exact hnone
            · exact fun _ => hlimit
          · exact (List.perm_append_singleton s.nextReplica pending).nodup_iff.mpr
              (List.nodup_cons.mpr ⟨fun hr => hbelow _ hr rfl, hnodup⟩)
          · intro r' hr'
            have huser := userReplicaList_referenceInternal
              (s := s.newReplica.adoptReplica s.nextReplica) (hnone 0) 0
            rw [if_pos rfl] at huser
            refine huser.symm ▸ ?_
            rcases List.mem_append.mp hr' with hr' | hr'
            · exact List.mem_append_left _ (hregistered r' hr')
            · exact List.mem_append_right _ hr'
        | false =>
          cases deallocated with
          | true => exact ⟨hadopted.destroy _, hnodup,
              fun r' hr' => hadopted.mem_destroy (hbelow r' hr') (hregistered r' hr')⟩
          | false => exact ⟨hadopted, hnodup, hregistered⟩

theorem Constructing.foldl {worldId index : ℕ} {r : ReplicaManager3 × List ℕ}
    {entries : List ConstructionEntry} (h : Constructing worldId r)
    (hentries : EachEntry (EntryHandled worldId index) worldId index r entries) :
    Constructing worldId (entries.foldl (ReplicaManager3.constructEntry worldId index) r) := by
  induction entries generalizing r with
  | nil => exact h
  | cons entry entries ih => exact ih (h.constructEntry hentries.1) hentries.2

theorem Constructing.announceDownload {worldId index r : ℕ}
    (h : Constructing worldId (s, r :: pending)) :
    Constructing worldId (s.announceDownload worldId index r, pending) := by
  obtain ⟨hsound, hnodup, hregistered⟩ := h
  obtain ⟨hnew, hnodup⟩ := List.nodup_cons.mp hnodup
  refine ⟨?_, hnodup, ?_⟩
  · apply Sound.announce hsound (hregistered r List.mem_cons_self) hnew
    · intro j c
      split
      · exact ConnectionRM3.queriesReplicas_onDownloadFromThisSystem
      · exact ConnectionRM3.queriesReplicas_onDownloadFromOtherSystem
    · intro j c hc hannounced hnone
      have hown : ConnectionRM3.OwnIndices (s.Announced pending worldId c.queriesReplicas)
          s.referenceIndex :=
        fun r hr r' heq => hsound.index_inj r (hsound.registered worldId r hr.1).referenceIndex r'
          heq
      have hfresh : c.queriesReplicas = true → r ∉ replicasOf c.constructedReplicaList := by
        intro hmode hin
        obtain ⟨lsr, hlsr, heq⟩ := List.mem_map.mp hin
        exact hnone hmode (List.mem_map.mpr ⟨lsr, List.mem_append_left _ hlsr, heq⟩)
      split
      · by_cases hin : r ∈ replicasOf c.constructedReplicaList
        · have hmode : c.queriesReplicas = false := by
            by_contra htrue
            exact hfresh (by simpa using htrue) hin
          rw [ConnectionRM3.onDownloadFromThisSystem_known hc hmode hin]
          exact hc
        · exact hc.onDownloadFromThisSystem hown hannounced hin
      · by_cases hmode : c.queriesReplicas = true
        · exact hc.onDownloadFromOtherSystem hannounced (hfresh hmode)
        · rw [ConnectionRM3.onDownloadFromOtherSystem, if_neg hmode]
          exact hc
  · intro r' hr'
    have hmem := hregistered r' (List.mem_cons_of_mem _ hr')
    exact (userReplicaList_updateConnections _ _ _).symm ▸ hmem

theorem Constructing.announceAll {worldId : ℕ} (h : Constructing worldId (s, pending))
    (index : ℕ) :
    (pending.foldl (ReplicaManager3.announceDownload worldId index) s).Sound [] := by
  induction pending generalizing s with
  | nil => exact h.sound
  | cons r pending ih => exact ih h.announceDownload

theorem Sound.destructEntry (h : s.Sound []) (worldId index : ℕ) (entry : DestructionEntry) :
    (s.destructEntry worldId index entry).Sound [] := by
  obtain ⟨replica, deserialized, deletedEarly, deallocated⟩ := entry
  cases replica with
  | none => exact h
  | some r =>
    cases deserialized with
    | true =>
      cases deletedEarly with
      | true => exact h.destroy r
      | false =>
        have hleft := h.dereference r (s.replica r).worldId
        cases deallocated with
        | true => exact hleft.destroy r
        | false => exact hleft
    | false =>
      apply h.updateConnection
      intro c hc _
      have hforgotten := (h.onDereference (List.mem_of_getElem? hc) r).1
      exact hforgotten.imp fun r' hr' => hr'.1.1

theorem Sound.onConstruction (h : s.Sound []) {worldId index : ℕ}
    {constructions : List ConstructionEntry} (destructions : List DestructionEntry)
    (hentries : EachEntry (EntryHandled worldId index) worldId index (s, []) constructions) :
    (s.onConstruction worldId index constructions destructions).Sound [] := by
  have hstart : Constructing worldId (s, []) :=
    ⟨h, List.nodup_nil, fun r hr => (List.not_mem_nil hr).elim⟩
  have hannounced := (hstart.foldl hentries).announceAll index
  have hdestructed : ∀ (destructions : List DestructionEntry) (s : ReplicaManager3), s.Sound [] →
      (destructions.foldl (ReplicaManager3.destructEntry worldId index) s).Sound [] := by
    intro destructions
    induction destructions with
    | nil => exact fun s hs => hs
    | cons entry destructions ih => exact fun s hs => ih _ (hs.destructEntry worldId index entry)
  exact hdestructed destructions _ hannounced

/-! ### Runs -/

theorem Sound.perform (h : s.Sound []) {op : Operation} (hpossible : s.Possible op)
    (hhandled : s.Handled op) : (s.perform op).Sound [] := by
  cases op with
  | newReplica => exact h.newReplica
  | reference r worldId => exact h.reference hpossible hhandled.1 hhandled.2
  | dereference r worldId => exact h.dereference r worldId
  | destroy r => exact h.destroy r
  | pushConnection worldId constructionMode => exact h.pushConnection worldId constructionMode
  | autoConstructByQuery worldId index answers => exact h.autoConstructByQuery hhandled
  | onNeverSerialize worldId index lsr => exact h.onNeverSerialize worldId index lsr
  | onConstruction worldId index constructions destructions =>
    exact h.onConstruction destructions hhandled

theorem Reachable.sound (h : Reachable Handled s) : s.Sound [] :=
  GuardedRun.Reachable.invariant (I := fun s => s.Sound []) h sound_start
    fun _ _ hs hop => hs.perform hop.1 hop.2

theorem Reachable.perform {allowed : ReplicaManager3 → Operation → Prop} {op : Operation}
    (h : Reachable allowed s) (hpossible : s.Possible op) (hallowed : allowed s op) :
    Reachable allowed (s.perform op) := GuardedRun.Reachable.perform h ⟨hpossible, hallowed⟩

/-- What `ValidateLists` asks of a connection, and that it has records of referenced replicas
only. -/
def ValidLists (s : ReplicaManager3) (worldId : ℕ) (c : ConnectionRM3) : Prop :=
  (replicasOf (c.constructedReplicaList ++ c.queryToConstructReplicaList)).Nodup ∧
  (∀ lsr ∈ c.queryToSerializeReplicaList, lsr ∈ c.constructedReplicaList) ∧
  (replicasOf c.queryToSerializeReplicaList).Nodup ∧
  (∀ lsr ∈ c.queryToDestructReplicaList, lsr ∈ c.constructedReplicaList) ∧
  (replicasOf c.queryToDestructReplicaList).Nodup ∧
  ∀ lsr ∈ c.records, lsr.replica ∈ s.userReplicaList worldId ∧ (s.replica lsr.replica).alive = true

instance (s : ReplicaManager3) (worldId : ℕ) (c : ConnectionRM3) :
    Decidable (s.ValidLists worldId c) :=
  inferInstanceAs (Decidable (_ ∧ _))

theorem Sound.mem_records (h : s.Sound []) {worldId : ℕ} {c : ConnectionRM3}
    (hc : c ∈ s.connectionList worldId) {lsr : LastSerializationResult} (hlsr : lsr ∈ c.records) :
    lsr.replica ∈ s.userReplicaList worldId := by
  have hsound := h.connections worldId c hc
  have hconstructed : ∀ lsr ∈ c.constructedReplicaList, lsr.replica ∈ s.userReplicaList worldId :=
    fun lsr hlsr => (hsound.referenced_constructed hlsr).1
  rw [ConnectionRM3.records] at hlsr
  rcases List.mem_append.mp hlsr with hlsr | hlsr
  · rcases List.mem_append.mp hlsr with hlsr | hlsr
    · exact (hsound.referenced lsr hlsr).1
    · exact hconstructed lsr (hsound.serialize lsr hlsr)
  · exact hconstructed lsr (hsound.destruct lsr hlsr)

/-! ### The records over a run -/

/-- A message that makes a replica in `worldId`. -/
def downloadRun (worldId : ℕ) : ReplicaManager3 :=
  (start.perform (.pushConnection worldId .queryReplicaForConstruction)).perform
    (.onConstruction worldId 0 [⟨true, none, true, true, true⟩] [])

theorem reachable_downloadRun {allowed : ReplicaManager3 → Operation → Prop} {worldId : ℕ}
    (hpush : allowed start (.pushConnection worldId .queryReplicaForConstruction))
    (hdownload : allowed (start.perform (.pushConnection worldId .queryReplicaForConstruction))
      (.onConstruction worldId 0 [⟨true, none, true, true, true⟩] [])) :
    Reachable allowed (downloadRun worldId) := by
  have hpushed : Reachable allowed
      (start.perform (.pushConnection worldId .queryReplicaForConstruction)) :=
    Reachable.perform GuardedRun.Reachable.start trivial hpush
  refine Reachable.perform hpushed ?_ hdownload
  refine And.intro ?_ trivial
  intro r hr
  cases hr

theorem reachable_downloadRun_handled : Reachable Handled (downloadRun 0) := by
  refine reachable_downloadRun trivial (And.intro ⟨?_, ?_⟩ trivial)
  · exact fun _ => ⟨rfl, by decide⟩
  · intro c hc hmode
    obtain rfl := Option.some.inj hc
    cases hmode

theorem connections_valid (h : Reachable Handled s) (worldId : ℕ) :
    ∀ c ∈ s.connectionList worldId, s.ValidLists worldId c := by
  intro c hc
  have hs := h.sound
  obtain ⟨hnodup, -, hserialize, hserialize', hdestruct, hdestruct', -, -⟩ :=
    hs.connections worldId c hc
  refine ⟨hnodup, hserialize, hserialize', hdestruct, hdestruct', ?_⟩
  intro lsr hlsr
  have hmem := hs.mem_records hc hlsr
  exact ⟨hmem, (hs.registered worldId _ hmem).alive⟩

theorem connections_valid_downloaded :
    (downloadRun 0).userReplicaList 0 = [0] ∧
      ∀ c ∈ (downloadRun 0).connectionList 0, (downloadRun 0).ValidLists 0 c :=
  ⟨rfl, connections_valid reachable_downloadRun_handled 0⟩

/-- The replica `0` of the world `0` and a connection that gives its own list. -/
def listRun : ReplicaManager3 :=
  ((start.perform .newReplica).perform (.reference 0 0)).perform
    (.pushConnection 0 .queryConnectionForReplicaList)

def existingTwice : Operation :=
  .onConstruction 0 0
    [⟨true, some 0, false, false, false⟩, ⟨true, some 0, false, false, false⟩] []

theorem reachable_listRun : Reachable (fun _ _ => True) listRun := by
  have hallocated : Reachable (fun _ _ => True) (start.perform .newReplica) :=
    Reachable.perform GuardedRun.Reachable.start trivial trivial
  have hreferenced : Reachable (fun _ _ => True)
      ((start.perform .newReplica).perform (.reference 0 0)) := hallocated.perform rfl trivial
  exact hreferenced.perform trivial trivial

/-- A message that names an existing replica twice leaves a record to serialize that is not
constructed. -/
theorem existingTwice_invalid :
    Reachable (fun _ _ => True) (listRun.perform existingTwice) ∧
      ¬∀ c ∈ (listRun.perform existingTwice).connectionList 0,
        (listRun.perform existingTwice).ValidLists 0 c := by
  constructor
  · refine Reachable.perform reachable_listRun ?_ trivial
    refine And.intro ?_ (And.intro ?_ trivial)
    · intro r hr
      obtain rfl := Option.some.inj hr
      exact ⟨rfl, rfl⟩
    · intro r hr
      obtain rfl := Option.some.inj hr
      exact ⟨rfl, rfl⟩
  · decide +kernel

/-- Where the worlds have a replica that was destroyed. -/
def Forgotten (s : ReplicaManager3) (r : ℕ) : Prop :=
  ∀ worldId, r ∉ s.userReplicaList worldId ∧
    ∀ c ∈ s.connectionList worldId, ∀ lsr ∈ c.records, lsr.replica ≠ r

theorem destroyed_forgotten (h : Reachable Handled s) :
    (∀ r, (s.replica r).alive = false → s.Forgotten r) ∧
      ∀ worldId, ∀ r ∈ s.userReplicaList worldId, (s.replica r).worldId = worldId := by
  have hs := h.sound
  constructor
  · intro r hdead worldId
    have hnone : r ∉ s.userReplicaList worldId := by
      intro hr
      have halive := (hs.registered worldId r hr).alive
      rw [hdead] at halive
      cases halive
    refine ⟨hnone, ?_⟩
    intro c hc lsr hlsr heq
    exact hnone (heq ▸ hs.mem_records hc hlsr)
  · exact fun worldId r hr => (hs.registered worldId r hr).worldId

theorem destroyed_forgotten_downloaded :
    (∀ r, (((downloadRun 0).perform (.destroy 0)).replica r).alive = false →
      ((downloadRun 0).perform (.destroy 0)).Forgotten r) ∧
    ∀ worldId, ∀ r ∈ ((downloadRun 0).perform (.destroy 0)).userReplicaList worldId,
      (((downloadRun 0).perform (.destroy 0)).replica r).worldId = worldId :=
  destroyed_forgotten (reachable_downloadRun_handled.perform rfl trivial)

/-- The destructor looks for a replica that a message made in the world `1` in the world `0`. -/
theorem destroyed_remains :
    Reachable (fun _ _ => True) ((downloadRun 1).perform (.destroy 0)) ∧
      (((downloadRun 1).perform (.destroy 0)).replica 0).alive = false ∧
      ¬((downloadRun 1).perform (.destroy 0)).Forgotten 0 := by
  refine ⟨(reachable_downloadRun trivial trivial).perform rfl trivial, rfl, ?_⟩
  intro hforgotten
  exact absurd (hforgotten 1).1 (by decide +kernel)

end ReplicaManager3

end SLikeNet
