import SLikeNet.ReplicaWorlds
import SLikeNet.ConnectionRecords

/-! Every replica that a world references is alive and knows its world, and the connections of the
world have records of nothing else. -/

namespace SLikeNet

theorem ConnectionRM3.Sound.congr {referenced : ℕ → Prop} {referenceIndex referenceIndex' : ℕ → ℕ}
    {c : ConnectionRM3} (h : c.Sound referenced referenceIndex)
    (hsame : ∀ r, referenced r → referenceIndex' r = referenceIndex r) :
    c.Sound referenced referenceIndex' := by
  refine ⟨h.nodup, ?_, h.serialize, h.serialize_nodup, h.destruct, h.destruct_nodup,
    h.referenced, h.listMode⟩
  apply List.Pairwise.imp_of_mem _ h.sorted
  intro a b ha hb hlt
  rwa [hsame _ (h.referenced_constructed ha), hsame _ (h.referenced_constructed hb)]

namespace ReplicaManager3

/-- What a world relies on when it removes a replica. -/
structure Registered (s : ReplicaManager3) (worldId r : ℕ) : Prop where
  alive : (s.replica r).alive = true
  worldId : (s.replica r).worldId = worldId
  hasReplicaManager : (s.replica r).hasReplicaManager = true
  hasNetworkIDManager : (s.replica r).hasNetworkIDManager = true
  referenceIndex : s.referenceIndex r ≠ unassignedReferenceIndex

/-- The replicas that a connection may have records of. `pending` are those of which the
connections that query the replicas were not told yet. -/
def Announced (s : ReplicaManager3) (pending : List ℕ) (worldId : ℕ) (queriesReplicas : Bool)
    (r : ℕ) : Prop :=
  r ∈ s.userReplicaList worldId ∧ (queriesReplicas = true → r ∉ pending)

structure Sound (s : ReplicaManager3) (pending : List ℕ) : Prop where
  allocated : ∀ r, (s.replica r).alive = true → r < s.nextReplica
  registered : ∀ worldId, ∀ r ∈ s.userReplicaList worldId, s.Registered worldId r
  indices : ∀ r, s.referenceIndex r ≠ unassignedReferenceIndex →
    s.referenceIndex r < s.nextReferenceIndex ∧ r < s.nextReplica
  index_inj : ∀ r, s.referenceIndex r ≠ unassignedReferenceIndex →
    ∀ r', s.referenceIndex r' = s.referenceIndex r → r' = r
  limit : s.nextReferenceIndex ≤ unassignedReferenceIndex
  nodup : ∀ worldId, (s.userReplicaList worldId).Nodup
  connections : ∀ worldId, ∀ c ∈ s.connectionList worldId,
    c.Sound (s.Announced pending worldId c.queriesReplicas) s.referenceIndex

variable {s : ReplicaManager3} {pending : List ℕ}

theorem sound_start : start.Sound [] := by
  constructor
  · intro r h
    cases h
  · intro worldId r h
    cases h
  · exact fun r h => (h rfl).elim
  · exact fun r h => (h rfl).elim
  · exact Nat.zero_le _
  · exact fun worldId => List.nodup_nil
  · intro worldId c h
    cases h

theorem Sound.ownIndices (h : s.Sound pending) (worldId : ℕ) (queriesReplicas : Bool) :
    ConnectionRM3.OwnIndices (s.Announced pending worldId queriesReplicas) s.referenceIndex :=
  fun r hr r' heq => h.index_inj r (h.registered worldId r hr.1).referenceIndex r' heq

/-! ### The replicas -/

theorem replica_setReplica (r : ℕ) (value : Replica3) (r' : ℕ) :
    (s.setReplica r value).replica r' = if r' = r then value else s.replica r' := by
  rw [setReplica]
  exact Function.update_apply _ _ _ _

theorem referenceIndex_setReplica {r : ℕ} {value : Replica3}
    (hindex : value.referenceIndex = s.referenceIndex r) :
    (s.setReplica r value).referenceIndex = s.referenceIndex := by
  funext r'
  rw [referenceIndex, replica_setReplica]
  by_cases heq : r' = r
  · rw [if_pos heq, hindex, heq]
  · rw [if_neg heq]
    rfl

theorem Sound.setReplica (h : s.Sound pending) {r : ℕ} {value : Replica3}
    (hindex : value.referenceIndex = s.referenceIndex r)
    (halive : value.alive = true → (s.replica r).alive = true)
    (hregistered : ∀ worldId, r ∈ s.userReplicaList worldId → value.alive = true ∧
      value.worldId = worldId ∧ value.hasReplicaManager = true ∧
        value.hasNetworkIDManager = true) :
    (s.setReplica r value).Sound pending := by
  have hsame := referenceIndex_setReplica hindex
  constructor
  · intro r' hr'
    rw [replica_setReplica] at hr'
    by_cases heq : r' = r
    · rw [if_pos heq] at hr'
      rw [heq]
      exact h.allocated r (halive hr')
    · rw [if_neg heq] at hr'
      exact h.allocated r' hr'
  · intro worldId r' hr'
    have hold := h.registered worldId r' hr'
    by_cases heq : r' = r
    · obtain ⟨ha, hw, hm, hn⟩ := hregistered worldId (heq ▸ hr')
      have hvalue : (s.setReplica r value).replica r' = value := by
        rw [replica_setReplica, if_pos heq]
      refine ⟨?_, ?_, ?_, ?_, ?_⟩
      · rw [hvalue, ha]
      · rw [hvalue, hw]
      · rw [hvalue, hm]
      · rw [hvalue, hn]
      · rw [hsame]
        exact hold.referenceIndex
    · have hvalue : (s.setReplica r value).replica r' = s.replica r' := by
        rw [replica_setReplica, if_neg heq]
      refine ⟨?_, ?_, ?_, ?_, ?_⟩
      · rw [hvalue, hold.alive]
      · rw [hvalue, hold.worldId]
      · rw [hvalue, hold.hasReplicaManager]
      · rw [hvalue, hold.hasNetworkIDManager]
      · rw [hsame]
        exact hold.referenceIndex
  · rw [hsame]
    exact h.indices
  · rw [hsame]
    exact h.index_inj
  · exact h.limit
  · exact h.nodup
  · intro worldId c hc
    rw [hsame]
    exact h.connections worldId c hc

theorem Sound.lt_nextReplica (h : s.Sound pending) {worldId r : ℕ}
    (hr : r ∈ s.userReplicaList worldId) : r < s.nextReplica :=
  h.allocated r (h.registered worldId r hr).alive

theorem Sound.unassigned (h : s.Sound pending) {r : ℕ} (hr : s.nextReplica ≤ r) :
    s.referenceIndex r = unassignedReferenceIndex := by
  by_contra hne
  exact absurd (h.indices r hne).2 (by omega)

theorem replica_newReplica (r : ℕ) :
    s.newReplica.replica r = if r = s.nextReplica then .new else s.replica r :=
  Function.update_apply _ _ _ _

theorem Sound.newReplica (h : s.Sound pending) : s.newReplica.Sound pending := by
  have hsame : s.newReplica.referenceIndex = s.referenceIndex := by
    funext r
    rw [referenceIndex, replica_newReplica]
    by_cases heq : r = s.nextReplica
    · rw [if_pos heq, heq, h.unassigned (Nat.le_refl _)]
      rfl
    · rw [if_neg heq]
      rfl
  constructor
  · intro r hr
    change r < s.nextReplica + 1
    rw [replica_newReplica] at hr
    by_cases heq : r = s.nextReplica
    · omega
    · rw [if_neg heq] at hr
      have := h.allocated r hr
      omega
  · intro worldId r hr
    have hold := h.registered worldId r hr
    have hvalue : s.newReplica.replica r = s.replica r := by
      rw [replica_newReplica, if_neg (Nat.ne_of_lt (h.lt_nextReplica hr))]
    refine ⟨?_, ?_, ?_, ?_, ?_⟩
    · rw [hvalue, hold.alive]
    · rw [hvalue, hold.worldId]
    · rw [hvalue, hold.hasReplicaManager]
    · rw [hvalue, hold.hasNetworkIDManager]
    · rw [hsame]
      exact hold.referenceIndex
  · intro r hr
    rw [hsame] at hr ⊢
    have := h.indices r hr
    exact ⟨this.1, Nat.lt_succ_of_lt this.2⟩
  · rw [hsame]
    exact h.index_inj
  · exact h.limit
  · exact h.nodup
  · intro worldId c hc
    rw [hsame]
    exact h.connections worldId c hc

/-! ### The worlds -/

theorem worldsArray_updateConnections (worldId : ℕ) (f : ℕ → ConnectionRM3 → ConnectionRM3) :
    (s.updateConnections worldId f).worldsArray = Function.update s.worldsArray worldId
      ⟨s.userReplicaList worldId, (s.connectionList worldId).mapIdx f⟩ := rfl

theorem userReplicaList_updateConnections (worldId : ℕ) (f : ℕ → ConnectionRM3 → ConnectionRM3)
    (worldId' : ℕ) :
    (s.updateConnections worldId f).userReplicaList worldId' = s.userReplicaList worldId' := by
  rw [userReplicaList, worldsArray_updateConnections]
  by_cases heq : worldId' = worldId
  · rw [heq, Function.update_self]
  · rw [Function.update_of_ne heq]
    rfl

theorem connectionList_updateConnections (worldId : ℕ) (f : ℕ → ConnectionRM3 → ConnectionRM3)
    (worldId' : ℕ) :
    (s.updateConnections worldId f).connectionList worldId' =
      if worldId' = worldId then (s.connectionList worldId).mapIdx f
      else s.connectionList worldId' := by
  rw [connectionList, worldsArray_updateConnections]
  by_cases heq : worldId' = worldId
  · rw [if_pos heq, heq, Function.update_self]
  · rw [if_neg heq, Function.update_of_ne heq]
    rfl

theorem Sound.updateConnections {pending' : List ℕ} (h : s.Sound pending) {worldId : ℕ}
    {f : ℕ → ConnectionRM3 → ConnectionRM3} (hsub : ∀ r ∈ pending', r ∈ pending)
    (hf : ∀ j c, (s.connectionList worldId)[j]? = some c →
      c.Sound (s.Announced pending worldId c.queriesReplicas) s.referenceIndex →
        (f j c).Sound (s.Announced pending' worldId (f j c).queriesReplicas) s.referenceIndex) :
    (s.updateConnections worldId f).Sound pending' := by
  have huser := userReplicaList_updateConnections (s := s) worldId f
  constructor
  · exact h.allocated
  · intro worldId' r hr
    rw [huser] at hr
    obtain ⟨ha, hw, hm, hn, hi⟩ := h.registered worldId' r hr
    exact ⟨ha, hw, hm, hn, hi⟩
  · exact h.indices
  · exact h.index_inj
  · exact h.limit
  · intro worldId'
    rw [huser]
    exact h.nodup worldId'
  · intro worldId' c hc
    rw [connectionList_updateConnections] at hc
    have hannounced : ∀ m, (s.updateConnections worldId f).Announced pending' worldId' m =
        s.Announced pending' worldId' m := by
      intro m
      funext r
      rw [Announced, Announced, huser]
    rw [hannounced]
    by_cases heq : worldId' = worldId
    · rw [if_pos heq] at hc
      obtain ⟨j, hj⟩ := List.getElem?_of_mem hc
      rw [List.getElem?_mapIdx] at hj
      obtain ⟨c', hc', rfl⟩ := Option.map_eq_some_iff.mp hj
      rw [heq]
      exact hf j c' hc' (h.connections worldId c' (List.mem_of_getElem? hc'))
    · rw [if_neg heq] at hc
      apply (h.connections worldId' c hc).imp
      exact fun r hr => ⟨hr.1, fun hmode hmem => hr.2 hmode (hsub r hmem)⟩

theorem Sound.nextAddress (h : s.Sound pending) (address : ℕ) :
    ({ s with nextAddress := address } : ReplicaManager3).Sound pending :=
  ⟨h.allocated, fun w r hr => ⟨(h.registered w r hr).alive, (h.registered w r hr).worldId,
    (h.registered w r hr).hasReplicaManager, (h.registered w r hr).hasNetworkIDManager,
    (h.registered w r hr).referenceIndex⟩, h.indices, h.index_inj, h.limit, h.nodup,
    h.connections⟩

/-! ### References -/

section Register

variable {r worldId : ℕ}

theorem replica_referenceInternal (hnew : r ∉ s.userReplicaList worldId) (r' : ℕ) :
    (s.referenceInternal r worldId).replica r' =
      if r' = r then { s.replica r with
        hasReplicaManager := true
        hasNetworkIDManager := true
        referenceIndex := s.assignedIndex r }
      else s.replica r' := by
  rw [referenceInternal, if_neg hnew]
  exact Function.update_apply _ _ _ _

theorem referenceIndex_referenceInternal (hnew : r ∉ s.userReplicaList worldId) (r' : ℕ) :
    (s.referenceInternal r worldId).referenceIndex r' =
      if r' = r then s.assignedIndex r else s.referenceIndex r' := by
  rw [referenceIndex, replica_referenceInternal hnew]
  split <;> rfl

theorem worldsArray_referenceInternal (hnew : r ∉ s.userReplicaList worldId) :
    (s.referenceInternal r worldId).worldsArray = Function.update s.worldsArray worldId
      ⟨s.userReplicaList worldId ++ [r], s.connectionList worldId⟩ := by
  rw [referenceInternal, if_neg hnew]

theorem nextReferenceIndex_referenceInternal (hnew : r ∉ s.userReplicaList worldId) :
    (s.referenceInternal r worldId).nextReferenceIndex = s.nextIndex r := by
  rw [referenceInternal, if_neg hnew]

theorem nextReplica_referenceInternal :
    (s.referenceInternal r worldId).nextReplica = s.nextReplica := by
  rw [referenceInternal]
  split <;> rfl

theorem userReplicaList_referenceInternal (hnew : r ∉ s.userReplicaList worldId) (worldId' : ℕ) :
    (s.referenceInternal r worldId).userReplicaList worldId' =
      if worldId' = worldId then s.userReplicaList worldId ++ [r]
      else s.userReplicaList worldId' := by
  rw [userReplicaList, worldsArray_referenceInternal hnew]
  by_cases heq : worldId' = worldId
  · rw [if_pos heq, heq, Function.update_self]
  · rw [if_neg heq, Function.update_of_ne heq]
    rfl

theorem connectionList_referenceInternal (hnew : r ∉ s.userReplicaList worldId) (worldId' : ℕ) :
    (s.referenceInternal r worldId).connectionList worldId' = s.connectionList worldId' := by
  rw [connectionList, worldsArray_referenceInternal hnew]
  by_cases heq : worldId' = worldId
  · rw [heq, Function.update_self]
  · rw [Function.update_of_ne heq]
    rfl

theorem Sound.assignedIndex_lt (h : s.Sound pending)
    (hlimit : s.referenceIndex r = unassignedReferenceIndex →
      s.nextReferenceIndex < unassignedReferenceIndex) :
    s.assignedIndex r < s.nextIndex r ∧ s.nextIndex r ≤ unassignedReferenceIndex ∧
      s.nextReferenceIndex ≤ s.nextIndex r := by
  have hold := h.limit
  rw [assignedIndex, nextIndex]
  by_cases hnone : s.referenceIndex r = unassignedReferenceIndex
  · have hlt := hlimit hnone
    rw [if_pos hnone, if_pos hnone]
    rw [unassignedReferenceIndex] at hlt ⊢
    omega
  · have hlt := (h.indices r hnone).1
    rw [if_neg hnone, if_neg hnone]
    omega

theorem Sound.assignedIndex_ne (h : s.Sound pending)
    (hlimit : s.referenceIndex r = unassignedReferenceIndex →
      s.nextReferenceIndex < unassignedReferenceIndex) {r' : ℕ} (hne : r' ≠ r) :
    s.referenceIndex r' ≠ s.assignedIndex r := by
  intro heq
  rw [assignedIndex] at heq
  by_cases hnone : s.referenceIndex r = unassignedReferenceIndex
  · have hlt := hlimit hnone
    rw [if_pos hnone] at heq
    have hindex := (h.indices r' (by omega)).1
    omega
  · rw [if_neg hnone] at heq
    exact hne (h.index_inj r hnone r' heq)

theorem Sound.referenceInternal (h : s.Sound pending) (halive : (s.replica r).alive = true)
    (hworldId : (s.replica r).worldId = worldId)
    (hnone : ∀ worldId', r ∉ s.userReplicaList worldId')
    (hlimit : s.referenceIndex r = unassignedReferenceIndex →
      s.nextReferenceIndex < unassignedReferenceIndex) :
    (s.referenceInternal r worldId).Sound (pending ++ [r]) := by
  have hnew := hnone worldId
  obtain ⟨hlt, hmax, hnext⟩ := h.assignedIndex_lt hlimit
  have hassigned : s.assignedIndex r ≠ unassignedReferenceIndex := by omega
  have hother : ∀ {r'}, r' ≠ r →
      (s.referenceInternal r worldId).referenceIndex r' = s.referenceIndex r' := by
    intro r' hne
    rw [referenceIndex_referenceInternal hnew, if_neg hne]
  have hself : (s.referenceInternal r worldId).referenceIndex r = s.assignedIndex r := by
    rw [referenceIndex_referenceInternal hnew, if_pos rfl]
  constructor
  · intro r' hr'
    rw [nextReplica_referenceInternal]
    rw [replica_referenceInternal hnew] at hr'
    by_cases heq : r' = r
    · rw [heq]
      exact h.allocated r halive
    · rw [if_neg heq] at hr'
      exact h.allocated r' hr'
  · intro worldId' r' hr'
    rw [userReplicaList_referenceInternal hnew] at hr'
    by_cases heq : r' = r
    · have hw : worldId' = worldId := by
        by_contra hne
        rw [if_neg hne, heq] at hr'
        exact hnone worldId' hr'
      subst heq
      rw [hw]
      constructor
      · rw [replica_referenceInternal hnew, if_pos rfl]
        exact halive
      · rw [replica_referenceInternal hnew, if_pos rfl]
        exact hworldId
      · rw [replica_referenceInternal hnew, if_pos rfl]
      · rw [replica_referenceInternal hnew, if_pos rfl]
      · rw [hself]
        exact hassigned
    · have hmem : r' ∈ s.userReplicaList worldId' := by
        by_cases hw : worldId' = worldId
        · rw [if_pos hw] at hr'
          rw [hw]
          rcases List.mem_append.mp hr' with hr' | hr'
          · exact hr'
          · exact (heq (List.mem_singleton.mp hr')).elim
        · rwa [if_neg hw] at hr'
      obtain ⟨ha, hw, hm, hn, hi⟩ := h.registered worldId' r' hmem
      constructor
      · rwa [replica_referenceInternal hnew, if_neg heq]
      · rwa [replica_referenceInternal hnew, if_neg heq]
      · rwa [replica_referenceInternal hnew, if_neg heq]
      · rwa [replica_referenceInternal hnew, if_neg heq]
      · rwa [hother heq]
  · intro r' hr'
    rw [nextReplica_referenceInternal, nextReferenceIndex_referenceInternal hnew]
    by_cases heq : r' = r
    · rw [heq, hself]
      exact ⟨hlt, h.allocated r halive⟩
    · rw [hother heq] at hr' ⊢
      have hold := h.indices r' hr'
      exact ⟨Nat.lt_of_lt_of_le hold.1 hnext, hold.2⟩
  · intro r' hr' r'' heq''
    by_cases heq : r' = r
    · by_contra hne
      rw [heq, hself, hother (heq ▸ hne)] at heq''
      exact h.assignedIndex_ne hlimit (heq ▸ hne) heq''
    · by_cases hsame : r'' = r
      · rw [hsame, hself, hother heq] at heq''
        exact (h.assignedIndex_ne hlimit heq heq''.symm).elim
      · rw [hother heq] at hr' heq''
        rw [hother hsame] at heq''
        exact h.index_inj r' hr' r'' heq''
  · rw [nextReferenceIndex_referenceInternal hnew]
    exact hmax
  · intro worldId'
    rw [userReplicaList_referenceInternal hnew]
    split
    · exact (List.perm_append_singleton r _).nodup_iff.mpr
        (List.nodup_cons.mpr ⟨hnew, h.nodup worldId⟩)
    · exact h.nodup worldId'
  · intro worldId' c hc
    rw [connectionList_referenceInternal hnew] at hc
    have hold := h.connections worldId' c hc
    have hindex : ∀ r', s.Announced pending worldId' c.queriesReplicas r' →
        (s.referenceInternal r worldId).referenceIndex r' = s.referenceIndex r' :=
      fun r' hr' => hother fun heq => hnone worldId' (heq ▸ hr'.1)
    apply (hold.congr hindex).imp
    intro r' hr'
    have hne : r' ≠ r := fun heq => hnone worldId' (heq ▸ hr'.1)
    constructor
    · rw [userReplicaList_referenceInternal hnew]
      by_cases hw : worldId' = worldId
      · rw [if_pos hw, ← hw]
        exact List.mem_append_left _ hr'.1
      · rw [if_neg hw]
        exact hr'.1
    · intro hmode hmem
      rcases List.mem_append.mp hmem with hmem | hmem
      · exact hr'.2 hmode hmem
      · exact hne (List.mem_singleton.mp hmem)

end Register

/-! ### Removals -/

theorem worldsArray_dereference (r worldId : ℕ) :
    (s.dereference r worldId).worldsArray = Function.update s.worldsArray worldId
      ⟨(s.userReplicaList worldId).erase r,
        (s.connectionList worldId).map (ConnectionRM3.onDereference s.referenceIndex
          (s.replica r).hasNetworkIDManager r)⟩ := rfl

theorem userReplicaList_dereference (r worldId worldId' : ℕ) :
    (s.dereference r worldId).userReplicaList worldId' =
      if worldId' = worldId then (s.userReplicaList worldId).erase r
      else s.userReplicaList worldId' := by
  rw [userReplicaList, worldsArray_dereference]
  by_cases heq : worldId' = worldId
  · rw [if_pos heq, heq, Function.update_self]
  · rw [if_neg heq, Function.update_of_ne heq]
    rfl

theorem connectionList_dereference (r worldId worldId' : ℕ) :
    (s.dereference r worldId).connectionList worldId' =
      if worldId' = worldId then
        (s.connectionList worldId).map (ConnectionRM3.onDereference s.referenceIndex
          (s.replica r).hasNetworkIDManager r)
      else s.connectionList worldId' := by
  rw [connectionList, worldsArray_dereference]
  by_cases heq : worldId' = worldId
  · rw [if_pos heq, heq, Function.update_self]
  · rw [if_neg heq, Function.update_of_ne heq]
    rfl

theorem Sound.mem_dereference (h : s.Sound pending) {r worldId worldId' r' : ℕ} :
    r' ∈ (s.dereference r worldId).userReplicaList worldId' ↔
      r' ∈ s.userReplicaList worldId' ∧ (worldId' = worldId → r' ≠ r) := by
  rw [userReplicaList_dereference]
  by_cases heq : worldId' = worldId
  · rw [if_pos heq, (h.nodup worldId).mem_erase_iff, heq]
    constructor
    · exact fun hmem => ⟨hmem.2, fun _ => hmem.1⟩
    · exact fun hmem => ⟨hmem.2 rfl, hmem.1⟩
  · rw [if_neg heq]
    exact ⟨fun hmem => ⟨hmem, fun hw => (heq hw).elim⟩, fun hmem => hmem.1⟩

theorem Sound.onDereference (h : s.Sound pending) {worldId : ℕ} {c : ConnectionRM3}
    (hc : c ∈ s.connectionList worldId) (r : ℕ) :
    (c.onDereference s.referenceIndex (s.replica r).hasNetworkIDManager r).Sound
      (fun r' => s.Announced pending worldId c.queriesReplicas r' ∧ r' ≠ r) s.referenceIndex ∧
    (c.onDereference s.referenceIndex (s.replica r).hasNetworkIDManager r).queriesReplicas =
      c.queriesReplicas := by
  have hold := h.connections worldId c hc
  have hown := h.ownIndices worldId c.queriesReplicas
  by_cases hn : (s.replica r).hasNetworkIDManager = true
  · rw [hn, ConnectionRM3.onDereference_eq hold hown]
    exact ⟨hold.without r, rfl⟩
  · have hnone : ¬s.Announced pending worldId c.queriesReplicas r :=
      fun hr => hn (h.registered worldId r hr.1).hasNetworkIDManager
    rw [ConnectionRM3.onDereference, if_neg hn]
    exact ⟨hold.imp fun r' hr' => ⟨hr', fun heq => hnone (heq ▸ hr')⟩, rfl⟩

theorem Sound.dereference (h : s.Sound pending) (r worldId : ℕ) :
    (s.dereference r worldId).Sound pending := by
  constructor
  · exact h.allocated
  · intro worldId' r' hr'
    obtain ⟨ha, hw, hm, hn, hi⟩ := h.registered worldId' r' (h.mem_dereference.mp hr').1
    exact ⟨ha, hw, hm, hn, hi⟩
  · exact h.indices
  · exact h.index_inj
  · exact h.limit
  · intro worldId'
    rw [userReplicaList_dereference]
    split
    · exact (h.nodup worldId).erase r
    · exact h.nodup worldId'
  · intro worldId' c hc
    rw [connectionList_dereference] at hc
    by_cases heq : worldId' = worldId
    · rw [if_pos heq] at hc
      obtain ⟨c', hc', rfl⟩ := List.mem_map.mp hc
      obtain ⟨hsound, hmode⟩ := h.onDereference hc' r
      rw [hmode]
      apply hsound.imp
      intro r' hr'
      rw [heq]
      exact ⟨h.mem_dereference.mpr ⟨hr'.1.1, fun _ => hr'.2⟩, hr'.1.2⟩
    · rw [if_neg heq] at hc
      apply (h.connections worldId' c hc).imp
      exact fun r' hr' => ⟨h.mem_dereference.mpr ⟨hr'.1, fun hw => (heq hw).elim⟩, hr'.2⟩

/-- What the destructor removes a replica from before the replica is gone. -/
def leaveWorld (r : ℕ) (s : ReplicaManager3) : ReplicaManager3 :=
  if (s.replica r).hasReplicaManager then s.dereference r (s.replica r).worldId else s

theorem destroy_eq (r : ℕ) (s : ReplicaManager3) :
    s.destroy r = (s.leaveWorld r).setReplica r { (s.leaveWorld r).replica r with alive := false } :=
  rfl

theorem Sound.leaveWorld (h : s.Sound pending) (r : ℕ) :
    (s.leaveWorld r).Sound pending ∧ ∀ worldId, r ∉ (s.leaveWorld r).userReplicaList worldId := by
  rw [ReplicaManager3.leaveWorld]
  split
  · refine ⟨h.dereference r _, ?_⟩
    intro worldId hr
    obtain ⟨hmem, hne⟩ := h.mem_dereference.mp hr
    exact hne (h.registered worldId r hmem).worldId.symm rfl
  · rename_i hm
    exact ⟨h, fun worldId hr => hm (h.registered worldId r hr).hasReplicaManager⟩

theorem Sound.destroy (h : s.Sound pending) (r : ℕ) : (s.destroy r).Sound pending := by
  obtain ⟨hsound, hnone⟩ := h.leaveWorld r
  rw [destroy_eq]
  apply hsound.setReplica
  · rfl
  · intro hdead
    cases hdead
  · exact fun worldId hr => (hnone worldId hr).elim

end ReplicaManager3

end SLikeNet
