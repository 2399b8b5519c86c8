import SLikeNet.ConnectionLists
import Mathlib.Data.List.Nodup
import Mathlib.Data.List.Perm.Basic

/-! Every record that a connection sends or asks about is the one that it has constructed, and a
replica has one record at most. -/

namespace SLikeNet

def replicasOf (list : List LastSerializationResult) : List ℕ := list.map (·.replica)

theorem mem_replicasOf {list : List LastSerializationResult} {lsr : LastSerializationResult}
    (h : lsr ∈ list) : lsr.replica ∈ replicasOf list := List.mem_map_of_mem h

/-- Where every replica has one record, the loops that remove the first record of a replica remove
all of them. -/
theorem removeReplica_eq_filter {list : List LastSerializationResult}
    (hnodup : (replicasOf list).Nodup) (replica3 : ℕ) :
    removeReplica replica3 list = list.filter fun lsr => !(lsr.replica == replica3) := by
  induction list with
  | nil => rfl
  | cons lsr list ih =>
    obtain ⟨hnew, hrest⟩ := List.nodup_cons.mp hnodup
    by_cases heq : lsr.replica = replica3
    · have hall : ∀ lsr' ∈ list, (!(lsr'.replica == replica3)) = true := by
        intro lsr' hmem
        have hne : lsr'.replica ≠ replica3 := by
          intro hsame
          have hmem' := mem_replicasOf hmem
          rw [hsame, ← heq] at hmem'
          exact hnew hmem'
        simpa using hne
      rw [removeReplica, List.eraseP_cons_of_pos (by simpa using heq),
        List.filter_cons_of_neg (by simpa using heq), List.filter_eq_self.mpr hall]
    · have hih := ih hrest
      rw [removeReplica] at hih ⊢
      rw [List.eraseP_cons_of_neg (by simpa using heq),
        List.filter_cons_of_pos (by simpa using heq), hih]

theorem eraseIdx_eq_filter {list : List LastSerializationResult}
    (hnodup : (replicasOf list).Nodup) {i : ℕ} {lsr : LastSerializationResult}
    (hi : list[i]? = some lsr) :
    list.eraseIdx i = list.filter fun lsr' => !(lsr'.replica == lsr.replica) := by
  rw [← removeReplica_eq_filter hnodup, removeReplica]
  induction list generalizing i with
  | nil => simp at hi
  | cons first list ih =>
    obtain ⟨hnew, hrest⟩ := List.nodup_cons.mp hnodup
    cases i with
    | zero =>
      obtain rfl : first = lsr := by simpa using hi
      rw [List.eraseP_cons_of_pos (by simp)]
      rfl
    | succ i =>
      have hi' : list[i]? = some lsr := by simpa using hi
      have hne : first.replica ≠ lsr.replica := by
        intro heq
        have hmem := mem_replicasOf (List.mem_of_getElem? hi')
        rw [← heq] at hmem
        exact hnew hmem
      rw [List.eraseP_cons_of_neg (by simpa using hne), List.eraseIdx_cons_succ, ih hrest hi']

theorem replicasOf_filter {list : List LastSerializationResult} (hnodup : (replicasOf list).Nodup)
    (p : LastSerializationResult → Bool) : (replicasOf (list.filter p)).Nodup :=
  hnodup.sublist (List.filter_sublist.map _)

theorem mem_filter_replica {list : List LastSerializationResult} {replica3 : ℕ}
    {lsr : LastSerializationResult} :
    lsr ∈ (list.filter fun lsr' => !(lsr'.replica == replica3)) ↔
      lsr ∈ list ∧ lsr.replica ≠ replica3 := by
  rw [List.mem_filter]
  simp

/-! ### The ordered list -/

section Ordered

variable {referenceIndex : ℕ → ℕ}

def IndexSorted (referenceIndex : ℕ → ℕ) (list : List LastSerializationResult) : Prop :=
  list.Pairwise fun a b => referenceIndex a.replica < referenceIndex b.replica

theorem IndexSorted.monotone {list : List LastSerializationResult}
    (h : IndexSorted referenceIndex list) (replica3 : ℕ) :
    OrderedList.Monotone (replica3LSRComp referenceIndex) list replica3 := by
  refine List.Pairwise.imp ?_ h
  intro a b hlt
  rw [replica3LSRComp, replica3LSRComp, Nat.compare_eq_lt, Nat.compare_eq_lt, Nat.compare_eq_gt,
    Nat.compare_eq_gt]
  omega

theorem replica3LSRComp_eq {replica3 : ℕ} {lsr : LastSerializationResult} :
    replica3LSRComp referenceIndex replica3 lsr = .eq ↔
      referenceIndex replica3 = referenceIndex lsr.replica := by
  rw [replica3LSRComp, Nat.compare_eq_eq]

theorem insertConstructed_new {list : List LastSerializationResult}
    (h : IndexSorted referenceIndex list) {lsr : LastSerializationResult}
    (hnew : ∀ lsr' ∈ list, referenceIndex lsr.replica ≠ referenceIndex lsr'.replica) :
    (insertConstructed referenceIndex lsr list).2 = true ∧
      (insertConstructed referenceIndex lsr list).1.Perm (lsr :: list) ∧
        IndexSorted referenceIndex (insertConstructed referenceIndex lsr list).1 := by
  have hnone : (OrderedList.getIndexFromKey (replica3LSRComp referenceIndex) list
      lsr.replica).2 = false := by
    rw [← Bool.not_eq_true, OrderedList.getIndexFromKey_eq_true_iff (h.monotone _)]
    rintro ⟨lsr', hmem, heq⟩
    exact hnew lsr' hmem (replica3LSRComp_eq.mp heq)
  obtain ⟨xs, ys, hsplit, hplace, hbelow, habove⟩ :=
    OrderedList.getIndexFromKey_split (h.monotone _) hnone
  have hinsert : insertConstructed referenceIndex lsr list = (xs ++ lsr :: ys, true) := by
    rw [insertConstructed]
    simp only [hnone, Bool.false_eq_true, if_false, hplace]
    rw [hsplit, insertIdx_length]
  rw [hinsert]
  refine ⟨rfl, ?_, ?_⟩
  · rw [hsplit]
    exact List.perm_middle
  · rw [IndexSorted, hsplit] at h
    obtain ⟨hxs, hys, hbetween⟩ := List.pairwise_append.mp h
    refine List.pairwise_append.mpr ⟨hxs, List.pairwise_cons.mpr ⟨?_, hys⟩, ?_⟩
    · intro b hb
      have hlt := habove b hb
      rwa [replica3LSRComp, Nat.compare_eq_lt] at hlt
    · intro a ha b hb
      rcases List.mem_cons.mp hb with rfl | hb
      · have hgt := hbelow a ha
        rwa [replica3LSRComp, Nat.compare_eq_gt] at hgt
      · exact hbetween a ha b hb

theorem insertConstructed_known {list : List LastSerializationResult}
    (h : IndexSorted referenceIndex list) {lsr lsr' : LastSerializationResult} (hmem : lsr' ∈ list)
    (heq : referenceIndex lsr.replica = referenceIndex lsr'.replica) :
    insertConstructed referenceIndex lsr list = (list, false) := by
  have hfound := (OrderedList.getIndexFromKey_eq_true_iff (h.monotone lsr.replica)).mpr
    ⟨lsr', hmem, replica3LSRComp_eq.mpr heq⟩
  rw [insertConstructed]
  simp only [hfound, if_true]

theorem removeConstructed_eq_filter {list : List LastSerializationResult}
    (h : IndexSorted referenceIndex list) (hnodup : (replicasOf list).Nodup) {replica3 : ℕ}
    (hown : ∀ lsr ∈ list, referenceIndex replica3 = referenceIndex lsr.replica →
      lsr.replica = replica3) :
    removeConstructed referenceIndex replica3 list =
      list.filter fun lsr => !(lsr.replica == replica3) := by
  cases hfound : (OrderedList.getIndexFromKey (replica3LSRComp referenceIndex) list
      replica3).2 with
  | true =>
    obtain ⟨xs, lsr, ys, hsplit, hplace, heq⟩ :=
      OrderedList.getIndexFromKey_at (h.monotone _) hfound
    have hat : list[xs.length]? = some lsr := by
      rw [hsplit]
      simp
    have hreplica := hown lsr (List.mem_of_getElem? hat) (replica3LSRComp_eq.mp heq)
    rw [removeConstructed]
    simp only [hfound, if_true, hplace]
    rw [eraseIdx_eq_filter hnodup hat, hreplica]
  | false =>
    rw [removeConstructed]
    simp only [hfound, Bool.false_eq_true, if_false]
    symm
    apply List.filter_eq_self.mpr
    intro lsr hmem
    have hne : lsr.replica ≠ replica3 := by
      intro heq
      have htrue := (OrderedList.getIndexFromKey_eq_true_iff (h.monotone replica3)).mpr
        ⟨lsr, hmem, replica3LSRComp_eq.mpr (by rw [heq])⟩
      rw [hfound] at htrue
      cases htrue
    simpa using hne

end Ordered

theorem perm_cons_filter {list : List LastSerializationResult} (hnodup : (replicasOf list).Nodup)
    {i : ℕ} {lsr : LastSerializationResult} (hi : list[i]? = some lsr) :
    list.Perm (lsr :: list.filter fun lsr' => !(lsr'.replica == lsr.replica)) := by
  obtain ⟨hlt, hget⟩ := List.getElem?_eq_some_iff.mp hi
  have hperm := List.getElem_cons_eraseIdx_perm hlt
  rw [hget, eraseIdx_eq_filter hnodup hi] at hperm
  exact hperm.symm

theorem replicasOf_concat {list : List LastSerializationResult} (hnodup : (replicasOf list).Nodup)
    {lsr : LastSerializationResult} (hnew : lsr.replica ∉ replicasOf list) :
    (replicasOf (list ++ [lsr])).Nodup := by
  have hperm := (List.perm_append_singleton lsr list).map (·.replica)
  exact hperm.nodup_iff.mpr (List.nodup_cons.mpr ⟨hnew, hnodup⟩)

namespace ConnectionRM3

/-- A replica has one record at most among those constructed and those to be constructed, and what
is to be serialized or destructed is the record that is constructed. -/
structure Sound (referenced : ℕ → Prop) (referenceIndex : ℕ → ℕ) (c : ConnectionRM3) : Prop where
  nodup : (replicasOf (c.constructedReplicaList ++ c.queryToConstructReplicaList)).Nodup
  sorted : IndexSorted referenceIndex c.constructedReplicaList
  serialize : ∀ lsr ∈ c.queryToSerializeReplicaList, lsr ∈ c.constructedReplicaList
  serialize_nodup : (replicasOf c.queryToSerializeReplicaList).Nodup
  destruct : ∀ lsr ∈ c.queryToDestructReplicaList, lsr ∈ c.constructedReplicaList
  destruct_nodup : (replicasOf c.queryToDestructReplicaList).Nodup
  referenced : ∀ lsr ∈ c.constructedReplicaList ++ c.queryToConstructReplicaList,
    referenced lsr.replica
  listMode : c.queriesReplicas = false →
    c.queryToConstructReplicaList = [] ∧ c.queryToDestructReplicaList = []

section Transitions

variable {referenced : ℕ → Prop} {referenceIndex : ℕ → ℕ} {c : ConnectionRM3}

theorem sound_new (constructionMode : ConstructionMode) :
    (new constructionMode).Sound referenced referenceIndex := by
  constructor
  · exact List.nodup_nil
  · exact List.Pairwise.nil
  · intro lsr h
    cases h
  · exact List.nodup_nil
  · intro lsr h
    cases h
  · exact List.nodup_nil
  · intro lsr h
    cases h
  · exact fun _ => ⟨rfl, rfl⟩

theorem Sound.imp {referenced' : ℕ → Prop} (h : c.Sound referenced referenceIndex)
    (himp : ∀ replica3, referenced replica3 → referenced' replica3) :
    c.Sound referenced' referenceIndex :=
  ⟨h.nodup, h.sorted, h.serialize, h.serialize_nodup, h.destruct, h.destruct_nodup,
    fun lsr hlsr => himp _ (h.referenced lsr hlsr), h.listMode⟩

theorem Sound.constructed_nodup (h : c.Sound referenced referenceIndex) :
    (replicasOf c.constructedReplicaList).Nodup := by
  have hnodup := h.nodup
  rw [replicasOf, List.map_append] at hnodup
  exact (List.nodup_append.mp hnodup).1

theorem Sound.queryToConstruct_nodup (h : c.Sound referenced referenceIndex) :
    (replicasOf c.queryToConstructReplicaList).Nodup := by
  have hnodup := h.nodup
  rw [replicasOf, List.map_append] at hnodup
  exact (List.nodup_append.mp hnodup).2.1

theorem Sound.ne_of_mem (h : c.Sound referenced referenceIndex) {a b : LastSerializationResult}
    (ha : a ∈ c.constructedReplicaList) (hb : b ∈ c.queryToConstructReplicaList) :
    a.replica ≠ b.replica := by
  have hnodup := h.nodup
  rw [replicasOf, List.map_append] at hnodup
  exact (List.nodup_append.mp hnodup).2.2 _ (mem_replicasOf ha) _ (mem_replicasOf hb)

theorem Sound.referenced_constructed (h : c.Sound referenced referenceIndex)
    {lsr : LastSerializationResult} (hmem : lsr ∈ c.constructedReplicaList) :
    referenced lsr.replica := h.referenced lsr (List.mem_append_left _ hmem)

theorem Sound.onLocalReference (h : c.Sound referenced referenceIndex) {address replica3 : ℕ}
    (hmode : c.queriesReplicas = true) (href : referenced replica3)
    (hnew : replica3 ∉ replicasOf (c.constructedReplicaList ++ c.queryToConstructReplicaList)) :
    (c.onLocalReference address replica3).Sound referenced referenceIndex := by
  refine ⟨?_, h.sorted, h.serialize, h.serialize_nodup, h.destruct, h.destruct_nodup, ?_, ?_⟩
  · have hconcat := @replicasOf_concat _ h.nodup ⟨address, replica3⟩ hnew
    rwa [List.append_assoc] at hconcat
  · intro lsr hlsr
    have hlsr' : lsr ∈ c.constructedReplicaList ++
        (c.queryToConstructReplicaList ++ [⟨address, replica3⟩]) := hlsr
    rw [← List.append_assoc] at hlsr'
    rcases List.mem_append.mp hlsr' with hlsr' | hlsr'
    · exact h.referenced lsr hlsr'
    · rw [List.mem_singleton.mp hlsr']
      exact href
  · intro hlist
    have hlist' : c.queriesReplicas = false := hlist
    rw [hmode] at hlist'
    cases hlist'

/-- The records of one replica are removed from all lists. -/
def without (c : ConnectionRM3) (replica3 : ℕ) : ConnectionRM3 :=
  { c with
    constructedReplicaList := c.constructedReplicaList.filter fun lsr => !(lsr.replica == replica3)
    queryToConstructReplicaList :=
      c.queryToConstructReplicaList.filter fun lsr => !(lsr.replica == replica3)
    queryToSerializeReplicaList :=
      c.queryToSerializeReplicaList.filter fun lsr => !(lsr.replica == replica3)
    queryToDestructReplicaList :=
      c.queryToDestructReplicaList.filter fun lsr => !(lsr.replica == replica3) }

theorem Sound.without (h : c.Sound referenced referenceIndex) (replica3 : ℕ) :
    (c.without replica3).Sound (fun r => referenced r ∧ r ≠ replica3) referenceIndex := by
  constructor
  · have hfilter := replicasOf_filter h.nodup fun lsr => !(lsr.replica == replica3)
    rwa [List.filter_append] at hfilter
  · exact List.Pairwise.filter _ h.sorted
  · intro lsr hlsr
    obtain ⟨hmem, hne⟩ := mem_filter_replica.mp hlsr
    exact mem_filter_replica.mpr ⟨h.serialize lsr hmem, hne⟩
  · exact replicasOf_filter h.serialize_nodup _
  · intro lsr hlsr
    obtain ⟨hmem, hne⟩ := mem_filter_replica.mp hlsr
    exact mem_filter_replica.mpr ⟨h.destruct lsr hmem, hne⟩
  · exact replicasOf_filter h.destruct_nodup _
  · intro lsr hlsr
    have hlsr' : lsr ∈ (c.constructedReplicaList ++ c.queryToConstructReplicaList).filter
        fun lsr' => !(lsr'.replica == replica3) := by
      rw [List.filter_append]
      exact hlsr
    obtain ⟨hmem, hne⟩ := mem_filter_replica.mp hlsr'
    exact ⟨h.referenced lsr hmem, hne⟩
  · intro hlist
    obtain ⟨hconstruct, hdestruct⟩ := h.listMode hlist
    constructor
    · exact (congrArg _ hconstruct).trans rfl
    · exact (congrArg _ hdestruct).trans rfl

/-- An index belongs to one referenced replica. -/
def OwnIndices (referenced : ℕ → Prop) (referenceIndex : ℕ → ℕ) : Prop :=
  ∀ r, referenced r → ∀ r', referenceIndex r' = referenceIndex r → r' = r

theorem onDereference_eq (h : c.Sound referenced referenceIndex)
    (hown : OwnIndices referenced referenceIndex) (replica3 : ℕ) :
    c.onDereference referenceIndex true replica3 = c.without replica3 := by
  rw [onDereference, if_pos rfl, ConnectionRM3.without,
    removeConstructed_eq_filter h.sorted h.constructed_nodup
      (fun lsr hlsr heq => (hown _ (h.referenced_constructed hlsr) _ heq).symm),
    removeReplica_eq_filter h.queryToConstruct_nodup, removeReplica_eq_filter h.serialize_nodup,
    removeReplica_eq_filter h.destruct_nodup]

theorem Sound.onNeverConstruct (h : c.Sound referenced referenceIndex) (i : ℕ) :
    (c.onNeverConstruct i).Sound referenced referenceIndex := by
  have hsub : (c.constructedReplicaList ++ c.queryToConstructReplicaList.eraseIdx i).Sublist
      (c.constructedReplicaList ++ c.queryToConstructReplicaList) :=
    (List.eraseIdx_sublist _ i).append_left _
  refine ⟨h.nodup.sublist (hsub.map _), h.sorted, h.serialize, h.serialize_nodup, h.destruct,
    h.destruct_nodup, fun lsr hlsr => h.referenced lsr (hsub.subset hlsr), fun hlist => ?_⟩
  obtain ⟨hconstruct, hdestruct⟩ := h.listMode hlist
  refine ⟨?_, hdestruct⟩
  rw [ConnectionRM3.onNeverConstruct, hconstruct]
  rfl

theorem Sound.onDoNotQueryDestruction (h : c.Sound referenced referenceIndex) (i : ℕ) :
    (c.onDoNotQueryDestruction i).Sound referenced referenceIndex := by
  have hsub := List.eraseIdx_sublist c.queryToDestructReplicaList i
  refine ⟨h.nodup, h.sorted, h.serialize, h.serialize_nodup,
    fun lsr hlsr => h.destruct lsr (hsub.subset hlsr), h.destruct_nodup.sublist (hsub.map _),
    h.referenced, fun hlist => ?_⟩
  obtain ⟨hconstruct, hdestruct⟩ := h.listMode hlist
  refine ⟨hconstruct, ?_⟩
  rw [ConnectionRM3.onDoNotQueryDestruction, hdestruct]
  rfl

theorem Sound.onNeverSerialize (h : c.Sound referenced referenceIndex)
    (lsr : LastSerializationResult) :
    (c.onNeverSerialize lsr).Sound referenced referenceIndex := by
  have hsub : (c.queryToSerializeReplicaList.erase lsr).Sublist c.queryToSerializeReplicaList :=
    List.erase_sublist
  exact ⟨h.nodup, h.sorted, fun lsr' hlsr => h.serialize lsr' (hsub.subset hlsr),
    h.serialize_nodup.sublist (hsub.map _), h.destruct, h.destruct_nodup, h.referenced, h.listMode⟩

theorem Sound.insert (h : c.Sound referenced referenceIndex)
    (hown : OwnIndices referenced referenceIndex) {lsr : LastSerializationResult}
    (hnew : lsr.replica ∉ replicasOf c.constructedReplicaList) :
    (insertConstructed referenceIndex lsr c.constructedReplicaList).2 = true ∧
      (insertConstructed referenceIndex lsr c.constructedReplicaList).1.Perm
        (lsr :: c.constructedReplicaList) ∧
      IndexSorted referenceIndex (insertConstructed referenceIndex lsr c.constructedReplicaList).1 := by
  apply insertConstructed_new h.sorted
  intro lsr' hlsr' heq
  have hsame := hown _ (h.referenced_constructed hlsr') _ heq
  have hmem := mem_replicasOf hlsr'
  rw [← hsame] at hmem
  exact hnew hmem

theorem Sound.moveToConstructed (h : c.Sound referenced referenceIndex)
    (hown : OwnIndices referenced referenceIndex) (i : ℕ) :
    (c.moveToConstructed referenceIndex i).Sound referenced referenceIndex := by
  rw [ConnectionRM3.moveToConstructed]
  cases hi : c.queryToConstructReplicaList[i]? with
  | none => exact h
  | some lsr =>
    have hmem := List.mem_of_getElem? hi
    have hnew : ∀ list : List LastSerializationResult,
        (∀ lsr' ∈ list, lsr' ∈ c.constructedReplicaList) → lsr.replica ∉ replicasOf list := by
      intro list hlist hin
      obtain ⟨lsr', hlsr', heq⟩ := List.mem_map.mp hin
      exact h.ne_of_mem (hlist lsr' hlsr') hmem heq
    obtain ⟨-, hperm, hsorted⟩ := h.insert hown (hnew _ fun _ hlsr' => hlsr')
    have hfilter := perm_cons_filter h.queryToConstruct_nodup hi
    rw [← eraseIdx_eq_filter h.queryToConstruct_nodup hi] at hfilter
    have hall : ((insertConstructed referenceIndex lsr c.constructedReplicaList).1 ++
        c.queryToConstructReplicaList.eraseIdx i).Perm
          (c.constructedReplicaList ++ c.queryToConstructReplicaList) :=
      (hperm.append_right _).trans (List.perm_middle.symm.trans (hfilter.symm.append_left _))
    have hkept : ∀ lsr' ∈ c.constructedReplicaList,
        lsr' ∈ (insertConstructed referenceIndex lsr c.constructedReplicaList).1 :=
      fun lsr' hlsr' => hperm.mem_iff.mpr (List.mem_cons_of_mem _ hlsr')
    have hadded : ∀ list : List LastSerializationResult,
        (∀ lsr' ∈ list, lsr' ∈ c.constructedReplicaList) → ∀ lsr' ∈ list ++ [lsr],
          lsr' ∈ (insertConstructed referenceIndex lsr c.constructedReplicaList).1 := by
      intro list hlist lsr' hlsr'
      rcases List.mem_append.mp hlsr' with hlsr' | hlsr'
      · exact hkept lsr' (hlist lsr' hlsr')
      · rw [List.mem_singleton.mp hlsr']
        exact hperm.mem_iff.mpr List.mem_cons_self
    constructor
    · exact (hall.map _).nodup_iff.mpr h.nodup
    · exact hsorted
    · exact hadded _ h.serialize
    · exact replicasOf_concat h.serialize_nodup (hnew _ h.serialize)
    · exact hadded _ h.destruct
    · exact replicasOf_concat h.destruct_nodup (hnew _ h.destruct)
    · exact fun lsr' hlsr' => h.referenced lsr' (hall.mem_iff.mp hlsr')
    · intro hlist
      rw [(h.listMode hlist).1] at hmem
      cases hmem

theorem Sound.onConstructReplicaToThisConnection (h : c.Sound referenced referenceIndex)
    (hown : OwnIndices referenced referenceIndex) (address : ℕ) {replica3 : ℕ}
    (hmode : c.queriesReplicas = false) (href : referenced replica3)
    (hnew : replica3 ∉ replicasOf c.constructedReplicaList) :
    (c.onConstructReplicaToThisConnection referenceIndex address replica3).Sound referenced
      referenceIndex ∧
    (replicasOf (c.onConstructReplicaToThisConnection referenceIndex address
      replica3).constructedReplicaList).Perm (replica3 :: replicasOf c.constructedReplicaList) := by
  obtain ⟨hconstruct, hdestruct⟩ := h.listMode hmode
  obtain ⟨-, hperm, hsorted⟩ := @Sound.insert _ _ _ h hown ⟨address, replica3⟩ hnew
  have hkept : ∀ lsr' ∈ c.constructedReplicaList,
      lsr' ∈ (insertConstructed referenceIndex ⟨address, replica3⟩ c.constructedReplicaList).1 :=
    fun lsr' hlsr' => hperm.mem_iff.mpr (List.mem_cons_of_mem _ hlsr')
  have hnodup : (replicasOf (insertConstructed referenceIndex ⟨address, replica3⟩
      c.constructedReplicaList).1).Nodup :=
    (hperm.map _).nodup_iff.mpr (List.nodup_cons.mpr ⟨hnew, h.constructed_nodup⟩)
  refine ⟨⟨?_, hsorted, ?_, ?_, ?_, ?_, ?_, fun _ => ⟨hconstruct, hdestruct⟩⟩, hperm.map _⟩
  · rw [ConnectionRM3.onConstructReplicaToThisConnection, hconstruct, List.append_nil]
    exact hnodup
  · intro lsr' hlsr'
    rcases List.mem_append.mp hlsr' with hlsr' | hlsr'
    · exact hkept lsr' (h.serialize lsr' hlsr')
    · rw [List.mem_singleton.mp hlsr']
      exact hperm.mem_iff.mpr List.mem_cons_self
  · apply replicasOf_concat h.serialize_nodup
    intro hin
    obtain ⟨lsr', hlsr', heq⟩ := List.mem_map.mp hin
    have hmem := mem_replicasOf (h.serialize lsr' hlsr')
    rw [heq] at hmem
    exact hnew hmem
  · rw [ConnectionRM3.onConstructReplicaToThisConnection, hdestruct]
    intro lsr' hlsr'
    cases hlsr'
  · exact h.destruct_nodup
  · rw [ConnectionRM3.onConstructReplicaToThisConnection, hconstruct, List.append_nil]
    intro lsr' hlsr'
    rcases List.mem_cons.mp (hperm.mem_iff.mp hlsr') with rfl | hlsr'
    · exact href
    · exact h.referenced_constructed hlsr'

theorem Sound.onDownloadExisting (h : c.Sound referenced referenceIndex)
    (hown : OwnIndices referenced referenceIndex) {address replica3 : ℕ}
    (hlist : c.queriesReplicas = false →
      referenced replica3 ∧ replica3 ∉ replicasOf c.constructedReplicaList) :
    (c.onDownloadExisting referenceIndex address replica3).Sound referenced referenceIndex := by
  rw [ConnectionRM3.onDownloadExisting]
  by_cases hmode : c.queriesReplicas = true
  · rw [if_pos hmode]
    cases c.queryToConstructReplicaList.findIdx? fun lsr => lsr.replica == replica3 with
    | none => exact h
    | some i => exact h.moveToConstructed hown i
  · have hmode' : c.queriesReplicas = false := by simpa using hmode
    rw [if_neg hmode]
    obtain ⟨href, hnew⟩ := hlist hmode'
    exact (h.onConstructReplicaToThisConnection hown address hmode' href hnew).1

theorem Sound.onSendDestructionFromQuery (h : c.Sound referenced referenceIndex) (i : ℕ) :
    (c.onSendDestructionFromQuery i).Sound referenced referenceIndex := by
  rw [ConnectionRM3.onSendDestructionFromQuery]
  cases hi : c.queryToDestructReplicaList[i]? with
  | none => exact h
  | some lsr =>
    have hmem := h.destruct lsr (List.mem_of_getElem? hi)
    obtain ⟨j, hj⟩ := List.getElem?_of_mem hmem
    have hfilter := perm_cons_filter h.constructed_nodup hj
    have hall : ((c.constructedReplicaList.filter fun lsr' => !(lsr'.replica == lsr.replica)) ++
        (c.queryToConstructReplicaList ++ [lsr])).Perm
          (c.constructedReplicaList ++ c.queryToConstructReplicaList) := by
      rw [← List.append_assoc]
      exact (List.perm_append_singleton lsr _).trans (hfilter.symm.append_right _)
    dsimp only
    rw [removeReplica_eq_filter h.serialize_nodup, removeReplica_eq_filter h.constructed_nodup,
      eraseIdx_eq_filter h.destruct_nodup hi]
    constructor
    · exact (hall.map _).nodup_iff.mpr h.nodup
    · exact List.Pairwise.filter _ h.sorted
    · intro lsr' hlsr'
      obtain ⟨hserialize, hne⟩ := mem_filter_replica.mp hlsr'
      exact mem_filter_replica.mpr ⟨h.serialize lsr' hserialize, hne⟩
    · exact replicasOf_filter h.serialize_nodup _
    · intro lsr' hlsr'
      obtain ⟨hdestruct, hne⟩ := mem_filter_replica.mp hlsr'
      exact mem_filter_replica.mpr ⟨h.destruct lsr' hdestruct, hne⟩
    · exact replicasOf_filter h.destruct_nodup _
    · exact fun lsr' hlsr' => h.referenced lsr' (hall.mem_iff.mp hlsr')
    · intro hlist
      rw [(h.listMode hlist).2] at hi
      cases hi

theorem Sound.onDownloadFromThisSystem (h : c.Sound referenced referenceIndex)
    (hown : OwnIndices referenced referenceIndex) {address replica3 : ℕ}
    (href : referenced replica3) (hnew : replica3 ∉ replicasOf c.constructedReplicaList) :
    (c.onDownloadFromThisSystem referenceIndex address replica3).Sound referenced
      referenceIndex := by
  obtain ⟨htaken, hperm, hsorted⟩ := @Sound.insert _ _ _ h hown ⟨address, replica3⟩ hnew
  by_cases hmode : c.queriesReplicas = true
  · have hremoved := removeReplica_eq_filter h.queryToConstruct_nodup replica3
    have heq : c.onDownloadFromThisSystem referenceIndex address replica3 =
        { c with
          constructedReplicaList :=
            (insertConstructed referenceIndex ⟨address, replica3⟩ c.constructedReplicaList).1
          queryToConstructReplicaList :=
            c.queryToConstructReplicaList.filter fun lsr => !(lsr.replica == replica3)
          queryToSerializeReplicaList := c.queryToSerializeReplicaList ++ [⟨address, replica3⟩]
          queryToDestructReplicaList :=
            c.queryToDestructReplicaList ++ [⟨address, replica3⟩] } := by
      rw [ConnectionRM3.onDownloadFromThisSystem, downloadedToQuery, if_pos hmode]
      dsimp only
      rw [if_pos htaken, hremoved]
    have hfresh : ∀ list : List LastSerializationResult,
        (∀ lsr' ∈ list, lsr' ∈ c.constructedReplicaList) → replica3 ∉ replicasOf list := by
      intro list hlist hin
      obtain ⟨lsr', hlsr', heq⟩ := List.mem_map.mp hin
      have hmem := mem_replicasOf (hlist lsr' hlsr')
      rw [heq] at hmem
      exact hnew hmem
    have hadded : ∀ list : List LastSerializationResult,
        (∀ lsr' ∈ list, lsr' ∈ c.constructedReplicaList) →
          ∀ lsr' ∈ list ++ [⟨address, replica3⟩], lsr' ∈
            (insertConstructed referenceIndex ⟨address, replica3⟩ c.constructedReplicaList).1 := by
      intro list hlist lsr' hlsr'
      rcases List.mem_append.mp hlsr' with hlsr' | hlsr'
      · exact hperm.mem_iff.mpr (List.mem_cons_of_mem _ (hlist lsr' hlsr'))
      · rw [List.mem_singleton.mp hlsr']
        exact hperm.mem_iff.mpr List.mem_cons_self
    rw [heq]
    constructor
    · have hall : (replicasOf (⟨address, replica3⟩ :: (c.constructedReplicaList ++
          c.queryToConstructReplicaList.filter fun lsr => !(lsr.replica == replica3)))).Nodup := by
        refine List.nodup_cons.mpr ⟨?_, ?_⟩
        · intro hin
          obtain ⟨lsr', hlsr', heq'⟩ := List.mem_map.mp hin
          rcases List.mem_append.mp hlsr' with hlsr' | hlsr'
          · exact hfresh _ (fun _ hm => hm) (List.mem_map.mpr ⟨lsr', hlsr', heq'⟩)
          · exact (mem_filter_replica.mp hlsr').2 heq'
        · exact h.nodup.sublist ((List.filter_sublist.append_left _).map _)
      exact ((hperm.append_right _).map _).nodup_iff.mpr hall
    · exact hsorted
    · exact hadded _ h.serialize
    · exact replicasOf_concat h.serialize_nodup (hfresh _ h.serialize)
    · exact hadded _ h.destruct
    · exact replicasOf_concat h.destruct_nodup (hfresh _ h.destruct)
    · intro lsr' hlsr'
      rcases List.mem_append.mp hlsr' with hlsr' | hlsr'
      · rcases List.mem_cons.mp (hperm.mem_iff.mp hlsr') with rfl | hlsr'
        · exact href
        · exact h.referenced_constructed hlsr'
      · exact h.referenced lsr' (List.mem_append_right _ (mem_filter_replica.mp hlsr').1)
    · intro hlist
      have hlist' : c.queriesReplicas = false := hlist
      rw [hmode] at hlist'
      cases hlist'
  · have hmode' : c.queriesReplicas = false := by simpa using hmode
    have heq : c.onDownloadFromThisSystem referenceIndex address replica3 =
        c.onConstructReplicaToThisConnection referenceIndex address replica3 := by
      rw [ConnectionRM3.onDownloadFromThisSystem, downloadedToQuery, if_neg hmode, if_pos htaken]
      rfl
    rw [heq]
    exact (h.onConstructReplicaToThisConnection hown address hmode' href hnew).1

theorem Sound.onDownloadFromOtherSystem (h : c.Sound referenced referenceIndex)
    {address replica3 : ℕ} (href : referenced replica3)
    (hnew : replica3 ∉ replicasOf c.constructedReplicaList) :
    (c.onDownloadFromOtherSystem address replica3).Sound referenced referenceIndex := by
  rw [ConnectionRM3.onDownloadFromOtherSystem]
  by_cases hmode : c.queriesReplicas = true
  · rw [if_pos hmode]
    by_cases hany : (c.queryToConstructReplicaList.any fun lsr => lsr.replica == replica3) = true
    · rw [if_pos hany]
      exact h
    · rw [if_neg hany]
      apply h.onLocalReference hmode href
      intro hin
      obtain ⟨lsr, hlsr, heq⟩ := List.mem_map.mp hin
      rcases List.mem_append.mp hlsr with hlsr | hlsr
      · exact hnew (List.mem_map.mpr ⟨lsr, hlsr, heq⟩)
      · exact hany (List.any_eq_true.mpr ⟨lsr, hlsr, by simpa using heq⟩)
  · rw [if_neg hmode]
    exact h

/-! ### `AutoConstructByQuery` -/

theorem Sound.queryConstructions (h : c.Sound referenced referenceIndex)
    (hown : OwnIndices referenced referenceIndex) (answers : ℕ → RM3ConstructionState)
    (turns index : ℕ) :
    (c.queryConstructions referenceIndex answers turns index).Sound referenced
      referenceIndex := by
  induction turns generalizing index c with
  | zero => exact h
  | succ turns ih =>
    rw [ConnectionRM3.queryConstructions]
    cases answers turns with
    | sendConstruction => exact ih (h.moveToConstructed hown index) index
    | alreadyExistsRemotely => exact ih (h.moveToConstructed hown index) index
    | alreadyExistsRemotelyDoNotConstruct => exact ih (h.moveToConstructed hown index) index
    | neverConstruct => exact ih (h.onNeverConstruct index) index
    | noAction => exact ih h (index + 1)

theorem Sound.queryDestructions (h : c.Sound referenced referenceIndex)
    (answers : ℕ → RM3DestructionState) (turns index : ℕ) :
    (c.queryDestructions answers turns index).Sound referenced referenceIndex := by
  induction turns generalizing index c with
  | zero => exact h
  | succ turns ih =>
    rw [ConnectionRM3.queryDestructions]
    cases answers turns with
    | sendDestruction => exact ih (h.onSendDestructionFromQuery index) index
    | doNotQueryDestruction => exact ih (h.onDoNotQueryDestruction index) index
    | noAction => exact ih h (index + 1)

theorem Sound.removeDestroyed (h : c.Sound referenced referenceIndex)
    (hown : OwnIndices referenced referenceIndex) (hmode : c.queriesReplicas = false)
    (replica3 : ℕ) :
    (c.removeDestroyed referenceIndex replica3).Sound referenced referenceIndex := by
  rw [ConnectionRM3.removeDestroyed]
  by_cases hfound : (OrderedList.getIndexFromKey (replica3LSRComp referenceIndex)
      c.constructedReplicaList replica3).2 = true
  · obtain ⟨hconstruct, hdestruct⟩ := h.listMode hmode
    have hwithout := (h.without replica3).imp fun r (hr : referenced r ∧ r ≠ replica3) => hr.1
    rw [if_pos hfound, removeConstructed_eq_filter h.sorted h.constructed_nodup
      (fun lsr hlsr heq => (hown _ (h.referenced_constructed hlsr) _ heq).symm),
      removeReplica_eq_filter h.serialize_nodup]
    rw [ConnectionRM3.without, hconstruct, hdestruct] at hwithout
    rw [hconstruct, hdestruct]
    exact hwithout
  · rw [if_neg hfound]
    exact h

theorem constructionMode_removeDestroyed (replica3 : ℕ) :
    (c.removeDestroyed referenceIndex replica3).constructionMode = c.constructionMode := by
  rw [ConnectionRM3.removeDestroyed]
  split <;> rfl

theorem Sound.foldl_removeDestroyed (h : c.Sound referenced referenceIndex)
    (hown : OwnIndices referenced referenceIndex) (hmode : c.queriesReplicas = false)
    (destroyed : List ℕ) :
    (destroyed.foldl (ConnectionRM3.removeDestroyed referenceIndex) c).Sound referenced
      referenceIndex := by
  induction destroyed generalizing c with
  | nil => exact h
  | cons replica3 destroyed ih =>
    have hmode' : (c.removeDestroyed referenceIndex replica3).queriesReplicas = false := by
      rw [queriesReplicas, constructionMode_removeDestroyed]
      exact hmode
    exact ih (h.removeDestroyed hown hmode replica3) hmode'

theorem Sound.createReplicas (h : c.Sound referenced referenceIndex)
    (hown : OwnIndices referenced referenceIndex) (hmode : c.queriesReplicas = false)
    (address : ℕ) {replicas : List ℕ} (href : ∀ replica3 ∈ replicas, referenced replica3)
    (hnew : (replicasOf c.constructedReplicaList ++ replicas).Nodup) :
    (c.createReplicas referenceIndex address replicas).Sound referenced referenceIndex ∧
      (c.createReplicas referenceIndex address replicas).queriesReplicas = false := by
  induction replicas generalizing address c with
  | nil => exact ⟨h, hmode⟩
  | cons replica3 replicas ih =>
    have hfresh : replica3 ∉ replicasOf c.constructedReplicaList := by
      intro hin
      exact (List.nodup_append.mp hnew).2.2 _ hin _ List.mem_cons_self rfl
    obtain ⟨hsound, hperm⟩ := h.onConstructReplicaToThisConnection hown address hmode
      (href _ List.mem_cons_self) hfresh
    apply ih hsound hmode (address + 1) (fun r hr => href r (List.mem_cons_of_mem _ hr))
    exact ((hperm.append_right _).trans List.perm_middle.symm).nodup_iff.mpr hnew

theorem Sound.autoConstructByQuery (h : c.Sound referenced referenceIndex)
    (hown : OwnIndices referenced referenceIndex) {address : ℕ} {answers : QueryAnswers}
    (hlist : c.queriesReplicas = false → (∀ replica3 ∈ answers.newReplicas, referenced replica3) ∧
      (replicasOf c.constructedReplicaList ++ answers.newReplicas).Nodup) :
    (c.autoConstructByQuery referenceIndex address answers).Sound referenced referenceIndex := by
  rw [ConnectionRM3.autoConstructByQuery]
  by_cases hmode : c.queriesReplicas = true
  · rw [if_pos hmode, autoDestructByQuery]
    have hqueried := h.queryConstructions hown answers.queryConstruction
      c.queryToConstructReplicaList.length 0
    split
    · exact hqueried.queryDestructions _ _ _
    · exact hqueried
  · have hmode' : c.queriesReplicas = false := by simpa using hmode
    obtain ⟨href, hnew⟩ := hlist hmode'
    obtain ⟨hsound, hmode''⟩ := h.createReplicas hown hmode' address href hnew
    rw [if_neg hmode]
    exact hsound.foldl_removeDestroyed hown hmode'' _

end Transitions

end ConnectionRM3

end SLikeNet
