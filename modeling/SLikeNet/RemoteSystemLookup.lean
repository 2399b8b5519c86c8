import SLikeNet.RemoteSystem
import SLikeNet.Library.Transition

/-! The hash table over the connection table finds every active system. Its chains hold
indices, and the address that an index stands for is the one in its slot: slots keep their
address when they are closed and get another one when they are taken again. -/

namespace SLikeNet.RemoteSystems

variable {cfg : PeerConfig}

def Active (s : RemoteSystems) (i : ℕ) : Prop := (s.remoteSystemList i).isActive = true

instance (s : RemoteSystems) (i : ℕ) : Decidable (s.Active i) :=
  inferInstanceAs (Decidable ((s.remoteSystemList i).isActive = true))

def NoActiveHas (cfg : PeerConfig) (s : RemoteSystems) (sa : SystemAddress) : Prop :=
  ∀ i < cfg.maximumNumberOfPeers, s.Active i → s.addressOf i ≠ sa

instance (s : RemoteSystems) (sa : SystemAddress) : Decidable (s.NoActiveHas cfg sa) :=
  inferInstanceAs (Decidable (∀ i < cfg.maximumNumberOfPeers, s.Active i → s.addressOf i ≠ sa))

/-- The chains are well keyed, and slots that were never taken stand on none. -/
structure Chained (cfg : PeerConfig) (s : RemoteSystems) : Prop where
  wellKeyed : IndexChains.WellKeyed cfg.remoteSystemLookupHashIndex s.addressOf s.remoteSystemLookup
  assigned : ∀ b, ∀ i ∈ s.remoteSystemLookup b, s.addressOf i ≠ .unassigned

/-- The index stands on the chain of its address. -/
def Listed (cfg : PeerConfig) (s : RemoteSystems) (i : ℕ) : Prop :=
  i ∈ s.remoteSystemLookup (cfg.remoteSystemLookupHashIndex (s.addressOf i))

/-- `activeSystemList` lists the active systems, each once. -/
structure ListsActive (cfg : PeerConfig) (s : RemoteSystems) : Prop where
  nodup : s.activeSystemList.Nodup
  mem_iff : ∀ i, i ∈ s.activeSystemList ↔ s.Active i
  lt : ∀ i, s.Active i → i < cfg.maximumNumberOfPeers

theorem Chained.found {s : RemoteSystems} (h : Chained cfg s) {i : ℕ} (hi : s.Listed cfg i) :
    s.getRemoteSystemIndex cfg (s.addressOf i) = some i :=
  h.wellKeyed.lookup_eq hi

/-! ### References -/

theorem Chained.dereference {s : RemoteSystems} (h : Chained cfg s) (sa : SystemAddress) :
    Chained cfg (s.dereferenceRemoteSystem cfg sa) where
  wellKeyed := h.wellKeyed.unlink _ sa
  assigned b i hi := h.assigned b i (h.wellKeyed.mem_unlink_iff.mp hi).1

theorem Chained.mem_dereference {s : RemoteSystems} (h : Chained cfg s) {sa : SystemAddress}
    {b i : ℕ} :
    i ∈ (s.dereferenceRemoteSystem cfg sa).remoteSystemLookup b ↔
      i ∈ s.remoteSystemLookup b ∧ s.addressOf i ≠ sa :=
  h.wellKeyed.mem_unlink_iff

theorem dropOldReference_list (s : RemoteSystems) (k : ℕ) :
    (s.dropOldReference cfg k).remoteSystemList = s.remoteSystemList := by
  unfold dropOldReference
  split <;> rfl

theorem Chained.dropOldReference {s : RemoteSystems} (h : Chained cfg s) (k : ℕ) :
    Chained cfg (s.dropOldReference cfg k) := by
  unfold RemoteSystems.dropOldReference
  split
  · exact h.dereference _
  · exact h

/-- After the old reference is dropped the slot stands on no chain, and every other index
stands where it stood. -/
theorem Chained.mem_dropOldReference {s : RemoteSystems} (h : Chained cfg s) {k b i : ℕ} :
    i ∈ (s.dropOldReference cfg k).remoteSystemLookup b ↔ i ∈ s.remoteSystemLookup b ∧ i ≠ k := by
  unfold RemoteSystems.dropOldReference
  split
  · rename_i hdrop
    rw [h.mem_dereference]
    refine and_congr_right fun hi => not_congr ⟨fun hkey => ?_, fun hik => hik ▸ rfl⟩
    have hb := h.wellKeyed.hash_eq b i hi
    have hfound : s.getRemoteSystemIndex cfg (s.addressOf i) = some i := by
      refine h.found ?_
      rwa [Listed, hb]
    rw [hkey] at hfound
    exact Option.some.inj (hfound.symm.trans hdrop.2)
  · rename_i hkeep
    refine ⟨fun hi => ⟨hi, ?_⟩, fun hi => hi.1⟩
    rintro rfl
    refine hkeep ⟨h.assigned b i hi, h.found ?_⟩
    rwa [Listed, h.wellKeyed.hash_eq b i hi]

theorem remoteSystemList_reference (s : RemoteSystems) (k : ℕ) (sa : SystemAddress) :
    (s.referenceRemoteSystem cfg sa k).remoteSystemList =
      Function.update s.remoteSystemList k { s.remoteSystemList k with systemAddress := sa } := by
  show Function.update (s.dropOldReference cfg k).remoteSystemList k
    { (s.dropOldReference cfg k).remoteSystemList k with systemAddress := sa } = _
  rw [dropOldReference_list]

theorem addressOf_reference (s : RemoteSystems) (k : ℕ) (sa : SystemAddress) :
    (s.referenceRemoteSystem cfg sa k).addressOf = Function.update s.addressOf k sa := by
  funext i
  unfold addressOf
  rw [remoteSystemList_reference]
  rcases eq_or_ne i k with rfl | hi
  · rw [Function.update_self, Function.update_self]
  · rw [Function.update_of_ne hi, Function.update_of_ne hi]

theorem active_reference {s : RemoteSystems} {k i : ℕ} {sa : SystemAddress} :
    (s.referenceRemoteSystem cfg sa k).Active i ↔ s.Active i := by
  unfold Active
  rw [remoteSystemList_reference]
  rcases eq_or_ne i k with rfl | hi
  · rw [Function.update_self]
  · rw [Function.update_of_ne hi]

theorem mem_appendReference {s : RemoteSystems} {sa : SystemAddress} {k b i : ℕ} :
    i ∈ (s.appendReference cfg sa k).remoteSystemLookup b ↔
      i ∈ s.remoteSystemLookup b ∨ b = cfg.remoteSystemLookupHashIndex sa ∧ i = k := by
  simp only [appendReference]
  rcases eq_or_ne b (cfg.remoteSystemLookupHashIndex sa) with rfl | hb
  · rw [Function.update_self, List.mem_append, List.mem_singleton]
    simp only [true_and]
  · rw [Function.update_of_ne hb]
    simp only [hb, false_and, or_false]

theorem Chained.mem_cleared {s : RemoteSystems} (h : Chained cfg s) {sa : SystemAddress}
    {k b i : ℕ} :
    i ∈ ((s.dropOldReference cfg k).dereferenceRemoteSystem cfg sa).remoteSystemLookup b ↔
      i ∈ s.remoteSystemLookup b ∧ i ≠ k ∧ s.addressOf i ≠ sa := by
  have haddress : (s.dropOldReference cfg k).addressOf i = s.addressOf i :=
    congrArg (fun list => (list i).systemAddress) (dropOldReference_list s k)
  rw [(h.dropOldReference k).mem_dereference, h.mem_dropOldReference, haddress, and_assoc]

theorem Chained.mem_reference {s : RemoteSystems} (h : Chained cfg s) {sa : SystemAddress}
    {k b i : ℕ} :
    i ∈ (s.referenceRemoteSystem cfg sa k).remoteSystemLookup b ↔
      i ∈ s.remoteSystemLookup b ∧ i ≠ k ∧ s.addressOf i ≠ sa ∨
        b = cfg.remoteSystemLookupHashIndex sa ∧ i = k :=
  mem_appendReference.trans (or_congr_left h.mem_cleared)

theorem Chained.reference {s : RemoteSystems} (h : Chained cfg s) {sa : SystemAddress} (k : ℕ)
    (hsa : sa ≠ .unassigned) : Chained cfg (s.referenceRemoteSystem cfg sa k) := by
  have hcleared := (h.dropOldReference k).dereference sa
  have hself : (s.referenceRemoteSystem cfg sa k).addressOf k = sa := by
    rw [addressOf_reference, Function.update_self]
  have hother : ∀ i, i ≠ k → (s.referenceRemoteSystem cfg sa k).addressOf i = s.addressOf i := by
    intro i hi
    rw [addressOf_reference, Function.update_of_ne hi]
  have hrekeyed : IndexChains.WellKeyed cfg.remoteSystemLookupHashIndex
      (s.referenceRemoteSystem cfg sa k).addressOf
      ((s.dropOldReference cfg k).dereferenceRemoteSystem cfg sa).remoteSystemLookup := by
    refine hcleared.wellKeyed.rekey (fun b hk => (h.mem_cleared.mp hk).2.1 rfl) fun i hi => ?_
    exact (hother i hi).trans
      (congrArg (fun list => (list i).systemAddress) (dropOldReference_list s k).symm)
  refine ⟨?_, fun b i hi => ?_⟩
  · have hlink := hrekeyed.link (i := k) fun i hi => ?_
    · rw [hself] at hlink
      exact hlink
    · obtain ⟨-, hik, hne⟩ := h.mem_cleared.mp hi
      rw [hself, hother i hik]
      exact hne
  · rcases h.mem_reference.mp hi with ⟨hold, hik, -⟩ | ⟨-, rfl⟩
    · rw [hother i hik]
      exact h.assigned b i hold
    · rw [hself]
      exact hsa

theorem Chained.listed_reference {s : RemoteSystems} (h : Chained cfg s) {sa : SystemAddress}
    {k i : ℕ} (hi : i ≠ k → s.Listed cfg i ∧ s.addressOf i ≠ sa) :
    (s.referenceRemoteSystem cfg sa k).Listed cfg i := by
  rcases eq_or_ne i k with rfl | hik
  · refine h.mem_reference.mpr (Or.inr ⟨?_, rfl⟩)
    rw [addressOf_reference, Function.update_self]
  · obtain ⟨hlisted, hne⟩ := hi hik
    refine h.mem_reference.mpr (Or.inl ⟨?_, hik, hne⟩)
    rwa [addressOf_reference, Function.update_of_ne hik]

/-! ### The active systems -/

/-- All that the table guarantees between two operations. -/
structure Inv (cfg : PeerConfig) (s : RemoteSystems) : Prop where
  chained : Chained cfg s
  listed : ∀ i, s.Active i → s.Listed cfg i
  active : ListsActive cfg s

theorem Inv.found {s : RemoteSystems} (h : Inv cfg s) {i : ℕ} (hi : s.Active i) :
    s.getRemoteSystemIndex cfg (s.addressOf i) = some i :=
  h.chained.found (h.listed i hi)

theorem Inv.distinct {s : RemoteSystems} (h : Inv cfg s) {i j : ℕ} (hi : s.Active i)
    (hj : s.Active j) (heq : s.addressOf i = s.addressOf j) : i = j := by
  have hfound := h.found hi
  rw [heq, h.found hj] at hfound
  exact (Option.some.inj hfound).symm

theorem not_active_initial (i : ℕ) : ¬ initial.Active i := Bool.false_ne_true

theorem initial_inv (cfg : PeerConfig) : Inv cfg initial where
  chained :=
    { wellKeyed := ⟨fun _ _ hi => absurd hi List.not_mem_nil, fun _ => List.nodup_nil⟩
      assigned := fun _ _ hi => absurd hi List.not_mem_nil }
  listed _ hi := absurd hi (not_active_initial _)
  active :=
    { nodup := List.nodup_nil
      mem_iff := fun _ =>
        ⟨fun hi => absurd hi List.not_mem_nil, fun hi => absurd hi (not_active_initial _)⟩
      lt := fun _ hi => absurd hi (not_active_initial _) }

theorem Inv.congr {s t : RemoteSystems} (h : Inv cfg s) (haddress : t.addressOf = s.addressOf)
    (hactive : ∀ i, t.Active i ↔ s.Active i)
    (hlookup : t.remoteSystemLookup = s.remoteSystemLookup)
    (hlist : t.activeSystemList = s.activeSystemList) : Inv cfg t where
  chained := by
    refine ⟨?_, ?_⟩
    · rw [haddress, hlookup]
      exact h.chained.wellKeyed
    · rw [haddress, hlookup]
      exact h.chained.assigned
  listed i hi := by
    unfold Listed
    rw [haddress, hlookup]
    exact h.listed i ((hactive i).mp hi)
  active := by
    refine ⟨?_, fun i => ?_, fun i hi => h.active.lt i ((hactive i).mp hi)⟩
    · rw [hlist]
      exact h.active.nodup
    · rw [hlist, hactive]
      exact h.active.mem_iff i

theorem mem_removeFromActiveSystemList {s : RemoteSystems} (h : Inv cfg s) {k : ℕ}
    (hk : s.Active k) :
    (s.removeFromActiveSystemList (s.addressOf k)).activeSystemList.Nodup ∧
      ∀ i, i ∈ (s.removeFromActiveSystemList (s.addressOf k)).activeSystemList ↔
        i ≠ k ∧ s.Active i := by
  unfold removeFromActiveSystemList
  cases hfind : s.activeSystemList.findIdx? fun i => decide (s.addressOf i = s.addressOf k) with
  | none =>
    have hnone := List.findIdx?_eq_none_iff.mp hfind k ((h.active.mem_iff k).mpr hk)
    simp at hnone
  | some n =>
    obtain ⟨hn, hkey, -⟩ := List.findIdx?_eq_some_iff_getElem.mp hfind
    have hmem : s.activeSystemList[n] ∈ s.activeSystemList := List.getElem_mem hn
    have heq : s.activeSystemList[n] = k :=
      h.distinct ((h.active.mem_iff _).mp hmem) hk (by simpa using hkey)
    have hperm := List.swapRemove_perm hn
    have herase : s.activeSystemList.eraseIdx n = s.activeSystemList.erase k := by
      rw [← heq]
      exact (h.active.nodup.erase_getElem n hn).symm
    rw [herase] at hperm
    refine ⟨hperm.nodup_iff.mpr (h.active.nodup.erase k), fun i => ?_⟩
    exact hperm.mem_iff.trans (h.active.nodup.mem_erase_iff.trans
      (and_congr_right fun _ => h.active.mem_iff i))

/-! ### The operations -/

theorem activeSystemList_reference (s : RemoteSystems) (sa : SystemAddress) (k : ℕ) :
    (s.referenceRemoteSystem cfg sa k).activeSystemList = s.activeSystemList := by
  show (s.dropOldReference cfg k).activeSystemList = _
  unfold dropOldReference
  split <;> rfl

theorem Inv.reference {s : RemoteSystems} (h : Inv cfg s) {sa : SystemAddress} (k : ℕ)
    (hsa : sa ≠ .unassigned) (hfree : s.NoActiveHas cfg sa) :
    Inv cfg (s.referenceRemoteSystem cfg sa k) where
  chained := h.chained.reference k hsa
  listed i hi := by
    have hactive := active_reference.mp hi
    exact h.chained.listed_reference fun _ => ⟨h.listed i hactive, hfree i (h.active.lt i hactive) hactive⟩
  active := by
    refine ⟨?_, fun i => ?_, fun i hi => h.active.lt i (active_reference.mp hi)⟩
    · rw [activeSystemList_reference]
      exact h.active.nodup
    · rw [activeSystemList_reference, active_reference]
      exact h.active.mem_iff i

theorem remoteSystemList_set (s : RemoteSystems) (k i : ℕ) (r : RemoteSystemStruct) :
    (s.setRemoteSystem k r).remoteSystemList i = if i = k then r else s.remoteSystemList i :=
  Function.update_apply s.remoteSystemList k r i

theorem addressOf_set (s : RemoteSystems) (k : ℕ) {r : RemoteSystemStruct}
    (hr : r.systemAddress = s.addressOf k) : (s.setRemoteSystem k r).addressOf = s.addressOf := by
  funext i
  unfold addressOf
  rw [remoteSystemList_set]
  split
  · rename_i hi
    rw [hi]
    exact hr
  · rfl

theorem active_set {s : RemoteSystems} {k i : ℕ} {r : RemoteSystemStruct} :
    (s.setRemoteSystem k r).Active i ↔ i = k ∧ r.isActive = true ∨ i ≠ k ∧ s.Active i := by
  unfold Active
  rw [remoteSystemList_set]
  split
  · rename_i hi
    simp only [hi, true_and, ne_eq, not_true_eq_false, false_and, or_false]
  · rename_i hi
    simp only [hi, false_and, ne_eq, not_false_eq_true, true_and, false_or]

theorem Inv.activate {s : RemoteSystems} (h : Inv cfg s) {k : ℕ}
    (hk : k < cfg.maximumNumberOfPeers) (hfree : ¬ s.Active k) (hlisted : s.Listed cfg k)
    (connectionMode : ConnectMode) (incomingMTU : ℕ) (guid : RakNetGUID) (time : ℕ) :
    Inv cfg ((s.activate k connectionMode incomingMTU guid time).addToActiveSystemList k) := by
  have haddress : ((s.activate k connectionMode incomingMTU guid time).addToActiveSystemList
      k).addressOf = s.addressOf := addressOf_set s k rfl
  have hactive : ∀ i, ((s.activate k connectionMode incomingMTU guid time).addToActiveSystemList
      k).Active i ↔ i = k ∨ i ≠ k ∧ s.Active i := by
    intro i
    exact active_set.trans (or_congr_left (and_iff_left rfl))
  refine ⟨⟨?_, ?_⟩, fun i hi => ?_, ?_, fun i => ?_, fun i hi => ?_⟩
  · rw [haddress]
    exact h.chained.wellKeyed
  · rw [haddress]
    exact h.chained.assigned
  · unfold Listed
    rw [haddress]
    rcases (hactive i).mp hi with rfl | ⟨-, hold⟩
    · exact hlisted
    · exact h.listed i hold
  · exact List.nodup_append.mpr ⟨h.active.nodup, List.nodup_singleton k, fun i hi j hj hij =>
      hfree ((h.active.mem_iff k).mp (List.mem_singleton.mp hj ▸ hij ▸ hi))⟩
  · rw [hactive]
    have happend : i ∈ s.activeSystemList ++ [k] ↔ s.Active i ∨ i = k := by
      rw [List.mem_append, List.mem_singleton, h.active.mem_iff]
    refine happend.trans (or_comm.trans ?_)
    exact or_congr_right' fun hik => (and_iff_right hik).symm
  · rcases (hactive i).mp hi with rfl | ⟨-, hold⟩
    · exact hk
    · exact h.active.lt i hold

theorem Inv.assign {s : RemoteSystems} (h : Inv cfg s) {systemAddress : SystemAddress}
    (hsa : systemAddress ≠ .unassigned) (hfree : s.NoActiveHas cfg systemAddress)
    (connectionMode : ConnectMode) (incomingMTU : ℕ) (guid : RakNetGUID) (time : ℕ) :
    Inv cfg (s.assignSystemAddressToRemoteSystemList cfg systemAddress connectionMode incomingMTU
      guid time).2 := by
  unfold assignSystemAddressToRemoteSystemList
  split
  · exact h
  · split
    · exact h
    · rename_i k hfind
      have hinactive : ¬ s.Active k := by
        have := List.find?_some hfind
        simpa [Active] using this
      have hk : k < cfg.maximumNumberOfPeers := List.mem_range.mp (List.mem_of_find?_eq_some hfind)
      exact (h.reference k hsa hfree).activate hk (fun hk => hinactive (active_reference.mp hk))
        (h.chained.listed_reference fun hne => absurd rfl hne) connectionMode incomingMTU guid time

theorem lookup_removeFromActiveSystemList (s : RemoteSystems) (sa : SystemAddress) :
    (s.removeFromActiveSystemList sa).remoteSystemLookup = s.remoteSystemLookup ∧
      (s.removeFromActiveSystemList sa).remoteSystemList = s.remoteSystemList := by
  unfold removeFromActiveSystemList
  split <;> exact ⟨rfl, rfl⟩

theorem Inv.deactivate {s t : RemoteSystems} (h : Inv cfg s) {k : ℕ}
    (hlookup : t.remoteSystemLookup = s.remoteSystemLookup)
    (hlist : t.remoteSystemList = s.remoteSystemList) (hnodup : t.activeSystemList.Nodup)
    (hmem : ∀ i, i ∈ t.activeSystemList ↔ i ≠ k ∧ s.Active i) : Inv cfg (t.deactivate k) := by
  have hsame : t.addressOf = s.addressOf :=
    funext fun i => congrArg (fun list => (list i).systemAddress) hlist
  have haddress : (t.deactivate k).addressOf = s.addressOf := by
    unfold RemoteSystems.deactivate
    rw [addressOf_set t k (by rfl), hsame]
  have hactive : ∀ i, (t.deactivate k).Active i ↔ i ≠ k ∧ s.Active i := by
    intro i
    refine active_set.trans ?_
    simp only [Bool.false_eq_true, and_false, false_or, Active, hlist]
  refine ⟨⟨?_, ?_⟩, fun i hi => ?_, hnodup, fun i => ?_, fun i hi => ?_⟩
  · rw [haddress]
    exact hlookup ▸ h.chained.wellKeyed
  · rw [haddress]
    exact hlookup ▸ h.chained.assigned
  · have hold := h.listed i ((hactive i).mp hi).2
    unfold Listed
    rw [haddress]
    exact hlookup ▸ hold
  · exact (hmem i).trans (hactive i).symm
  · exact h.active.lt i ((hactive i).mp hi).2

theorem Inv.close {s : RemoteSystems} (h : Inv cfg s) (target : SystemAddress) :
    Inv cfg (s.closeConnectionImmediately cfg target) := by
  unfold closeConnectionImmediately
  split
  · exact h
  · split
    · exact h
    · rename_i k hfind
      split
      · rename_i hk
        obtain rfl : s.addressOf k = target := (IndexChains.lookup_some hfind).2
        obtain ⟨hlookup, hlist⟩ := lookup_removeFromActiveSystemList s (s.addressOf k)
        obtain ⟨hnodup, hmem⟩ := mem_removeFromActiveSystemList h hk
        exact h.deactivate hlookup hlist hnodup hmem
      · exact h

theorem Inv.change {s : RemoteSystems} (h : Inv cfg s) (guid : RakNetGUID) {sa : SystemAddress}
    (hsa : sa ≠ .unassigned) (hfree : s.NoActiveHas cfg sa) :
    Inv cfg (s.changeSystemAddress cfg guid sa) := by
  unfold changeSystemAddress
  split
  · exact h
  · split
    · exact h.reference _ hsa hfree
    · exact h

/-! ### Runs -/

inductive TableInput
  | assign (systemAddress : SystemAddress) (connectionMode : ConnectMode) (incomingMTU : ℕ)
      (guid : RakNetGUID) (time : ℕ)
  | close (target : SystemAddress)
  | changeSystemAddress (guid : RakNetGUID) (systemAddress : SystemAddress)

def tableStep (cfg : PeerConfig) (s : RemoteSystems) : TableInput → RemoteSystems
  | .assign systemAddress connectionMode incomingMTU guid time =>
    (s.assignSystemAddressToRemoteSystemList cfg systemAddress connectionMode incomingMTU guid
      time).2
  | .close target => s.closeConnectionImmediately cfg target
  | .changeSystemAddress guid systemAddress => s.changeSystemAddress cfg guid systemAddress

/-- New addresses are ones that no active system has. -/
def Fresh (cfg : PeerConfig) (s : RemoteSystems) : TableInput → Prop
  | .assign systemAddress _ _ _ _ => s.NoActiveHas cfg systemAddress
  | .close _ => True
  | .changeSystemAddress _ systemAddress => s.NoActiveHas cfg systemAddress

/-- New addresses are addresses. -/
def Addressed : TableInput → Prop
  | .assign systemAddress _ _ _ _ => systemAddress ≠ .unassigned
  | .close _ => True
  | .changeSystemAddress _ systemAddress => systemAddress ≠ .unassigned

theorem Inv.step {s : RemoteSystems} (h : Inv cfg s) {input : TableInput}
    (hfresh : s.Fresh cfg input) (hsa : Addressed input) : Inv cfg (s.tableStep cfg input) := by
  cases input with
  | assign systemAddress connectionMode incomingMTU guid time =>
    exact h.assign hsa hfresh connectionMode incomingMTU guid time
  | close target => exact h.close target
  | changeSystemAddress guid systemAddress => exact h.change guid hsa hfresh

/-- The lookup of the network thread and the scan of the user thread agree, no two active
systems share an address, and `activeSystemList` lists exactly the active systems. -/
structure LookupAgrees (cfg : PeerConfig) (s : RemoteSystems) : Prop where
  found : ∀ sa i, s.Active i → s.addressOf i = sa → s.getRemoteSystemIndex cfg sa = some i
  scan : ∀ sa, sa ≠ .unassigned →
    s.getRemoteSystemFromSystemAddress cfg sa = s.scanForActive cfg sa
  distinct : ∀ i j, s.Active i → s.Active j → s.addressOf i = s.addressOf j → i = j
  active : ListsActive cfg s

theorem Inv.scan {s : RemoteSystems} (h : Inv cfg s) {sa : SystemAddress}
    (hsa : sa ≠ .unassigned) :
    s.getRemoteSystemFromSystemAddress cfg sa = s.scanForActive cfg sa := by
  rw [getRemoteSystemFromSystemAddress, if_neg hsa]
  cases hscan : s.scanForActive cfg sa with
  | some i =>
    have hboth := List.find?_some hscan
    rw [Bool.and_eq_true, decide_eq_true_eq] at hboth
    obtain ⟨hactive, rfl⟩ := hboth
    rw [h.found hactive]
    exact if_pos hactive
  | none =>
    have hnone := List.find?_eq_none.mp hscan
    cases hfind : s.getRemoteSystemIndex cfg sa with
    | none => rfl
    | some i =>
      refine if_neg fun hactive => ?_
      have hkey : s.addressOf i = sa := (IndexChains.lookup_some hfind).2
      refine hnone i (List.mem_range.mpr (h.active.lt i hactive)) ?_
      rw [hactive, hkey, decide_eq_true rfl, Bool.and_self]

theorem Inv.agrees {s : RemoteSystems} (h : Inv cfg s) : LookupAgrees cfg s where
  found _ _ hi haddress := haddress ▸ h.found hi
  scan _ hsa := h.scan hsa
  distinct _ _ hi hj heq := h.distinct hi hj heq
  active := h.active

/-- Whatever the hash function, and whatever is assigned, closed and readdressed. -/
theorem lookup_agrees (cfg : PeerConfig) (inputs : List TableInput)
    (hfresh : Transition.Along (tableStep cfg) (Fresh cfg) initial inputs)
    (haddressed : ∀ input ∈ inputs, Addressed input) :
    LookupAgrees cfg (inputs.foldl (tableStep cfg) initial) := by
  have hinv : Inv cfg (inputs.foldl (tableStep cfg) initial) := by
    refine Transition.run_invariant (fun _ s => Inv cfg s) (initial_inv cfg) ?_
    intro pre input post heq hinv
    have hmem : input ∈ inputs := heq ▸ List.mem_append_right pre List.mem_cons_self
    exact hinv.step (hfresh pre input post heq) (haddressed input hmem)
  exact hinv.agrees

/-! ### The unassigned address -/

/-- Two slots, and every address on one chain. -/
def collidingPeers : PeerConfig where
  maximumNumberOfPeers := 2
  maximumIncomingConnections := 2
  incomingPassword := []
  limitConnectionFrequencyFromTheSameIP := false
  allowConnectionResponseIPMigration := false
  myGuid := ⟨7⟩
  ipList := []
  toInteger _ := 0

/-- A system takes a slot and is closed, and another address takes the slot. -/
def reusedSlot : List TableInput :=
  [.assign ⟨1, 1⟩ .unverifiedSender 1492 ⟨1⟩ 0, .close ⟨1, 1⟩,
    .assign ⟨2, 2⟩ .unverifiedSender 1492 ⟨2⟩ 1]

theorem reusedSlot_agrees :
    LookupAgrees collidingPeers (reusedSlot.foldl (tableStep collidingPeers) initial) := by
  refine lookup_agrees collidingPeers reusedSlot ?_ ?_
  · refine Transition.along_cons ?_ (Transition.along_cons trivial
      (Transition.along_cons ?_ Transition.along_nil))
    · exact fun i _ hi => absurd hi (not_active_initial i)
    · show NoActiveHas _ _ _
      decide
  · intro input hinput
    simp only [reusedSlot, List.mem_cons, List.not_mem_nil, or_false] at hinput
    rcases hinput with rfl | rfl | rfl
    · exact fun h => absurd h (by decide)
    · trivial
    · exact fun h => absurd h (by decide)

/-- The second system is moved to the unassigned address and on to a new one. Its slot is not
taken off the chain in between, so that it stands there twice. -/
def movedThroughUnassigned : List TableInput :=
  [.assign ⟨1, 1⟩ .unverifiedSender 1492 ⟨1⟩ 0, .assign ⟨2, 2⟩ .unverifiedSender 1492 ⟨2⟩ 0,
    .changeSystemAddress ⟨2⟩ .unassigned, .changeSystemAddress ⟨2⟩ ⟨3, 3⟩, .close ⟨3, 3⟩,
    .close ⟨1, 1⟩, .assign ⟨3, 3⟩ .unverifiedSender 1492 ⟨3⟩ 0]

theorem moved_through_unassigned :
    ¬ ∀ (cfg : PeerConfig) (inputs : List TableInput),
      Transition.Along (tableStep cfg) (Fresh cfg) initial inputs →
        LookupAgrees cfg (inputs.foldl (tableStep cfg) initial) := by
  intro hclaim
  have hfresh : Transition.Along (tableStep collidingPeers) (Fresh collidingPeers) initial
      movedThroughUnassigned := by
    refine Transition.along_cons ?_ (Transition.along_cons ?_ (Transition.along_cons ?_
      (Transition.along_cons ?_ (Transition.along_cons trivial (Transition.along_cons trivial
        (Transition.along_cons ?_ Transition.along_nil))))))
    all_goals
      show NoActiveHas _ _ _
      decide
  have hagrees := hclaim collidingPeers movedThroughUnassigned hfresh
  have hfound := hagrees.found ⟨3, 3⟩ 0 (by decide) (by decide)
  exact absurd hfound (by decide)

end SLikeNet.RemoteSystems
