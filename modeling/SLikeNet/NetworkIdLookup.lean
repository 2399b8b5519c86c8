import SLikeNet.NetworkIds
import Mathlib.Data.List.Basic

/-! The lookup of network ids over all runs: the chains of a manager hold its objects. -/

namespace SLikeNet

open LinkedChains

namespace NetworkIds

variable {M : Type} [DecidableEq M] {s s' : NetworkIds M} {m : M} {p : ObjectPointer}
  {chains : M → ℕ → List ObjectPointer} {out : Option ObjectPointer}

/-! ### The chains -/

omit [DecidableEq M] in
theorem object_setObject (s : NetworkIds M) (p : ObjectPointer) (object : NetworkIDObject M) :
    (s.setObject p object).objects p = object :=
  Function.update_self _ _ _

omit [DecidableEq M] in
theorem object_setObject_of_ne (s : NetworkIds M) {p q : ObjectPointer}
    (object : NetworkIDObject M) (hq : q ≠ p) :
    (s.setObject p object).objects q = s.objects q :=
  Function.update_of_ne hq _ _

omit [DecidableEq M] in
theorem objects_setObject (s : NetworkIds M) {p q : ObjectPointer} (object : NetworkIDObject M)
    (hq : some q ≠ some p) : (s.setObject p object).objects q = s.objects q :=
  object_setObject_of_ne s object fun heq => hq (congrArg some heq)

theorem manager_setManager (s : NetworkIds M) (m : M) (manager : NetworkIDManager) :
    (s.setManager m manager).managers m = manager :=
  Function.update_self _ _ _

theorem manager_setManager_of_ne (s : NetworkIds M) {m m' : M} (manager : NetworkIDManager)
    (hm : m' ≠ m) : (s.setManager m manager).managers m' = s.managers m' :=
  Function.update_of_ne hm _ _

omit [DecidableEq M] in
theorem next_setObject (s : NetworkIds M) (p : ObjectPointer) (object : NetworkIDObject M) :
    (s.setObject p object).next =
      Function.update s.next p object.nextInstanceForNetworkIDManager := by
  funext q
  by_cases hq : q = p
  · rw [hq, next, object_setObject, Function.update_self]
  · rw [next, object_setObject_of_ne s object hq, Function.update_of_ne hq, next]

omit [DecidableEq M] in
theorem next_setNext (s : NetworkIds M) (p : ObjectPointer) (next : Option ObjectPointer) :
    (s.setNext p next).next = Function.update s.next p next :=
  next_setObject s p _

theorem networkIdHash_setHash (s : NetworkIds M) (m m' : M) (b b' : ℕ)
    (head : Option ObjectPointer) : ((s.setHash m b head).managers m').networkIdHash b' =
      if m' = m ∧ b' = b then head else (s.managers m').networkIdHash b' := by
  rw [setHash]
  by_cases hm : m' = m
  · rw [hm, manager_setManager]
    show Function.update (s.managers m).networkIdHash b head b' = _
    by_cases hb : b' = b
    · rw [if_pos ⟨rfl, hb⟩, hb, Function.update_self]
    · rw [Function.update_of_ne hb, if_neg fun h => hb h.2]
  · rw [manager_setManager_of_ne s _ hm, if_neg fun h => hm h.1]

/-- The objects that the hash tables lead to, each on one chain. -/
structure Threads (s : NetworkIds M) (chains : M → ℕ → List ObjectPointer) : Prop where
  linked : ∀ m b, Linked s.next ((s.managers m).networkIdHash b) (chains m b)
  nodup : ∀ m b, (chains m b).Nodup
  apart : ∀ {m b m' b' p}, p ∈ chains m b → p ∈ chains m' b' → m' = m ∧ b' = b

omit [DecidableEq M] in
theorem Threads.follow_eq (h : Threads s chains) (found : ObjectPointer → Bool) (m : M) (b : ℕ) :
    follow s.next found objectSteps ((s.managers m).networkIdHash b) =
      some ((chains m b).find? found) := by
  apply LinkedChains.follow_eq (h.linked m b)
  have hlength := (h.nodup m b).length_le_card
  rw [Fintype.card_fin] at hlength
  exact Nat.lt_succ_of_le hlength

/-- The ids of the objects and their managers are the same. -/
structure SameIds (s s' : NetworkIds M) : Prop where
  networkID : ∀ p, (s'.objects p).networkID = (s.objects p).networkID
  networkIDManager : ∀ p, (s'.objects p).networkIDManager = (s.objects p).networkIDManager

omit [DecidableEq M] in
theorem SameIds.refl (s : NetworkIds M) : SameIds s s := ⟨fun _ => rfl, fun _ => rfl⟩

omit [DecidableEq M] in
theorem SameIds.trans {s'' : NetworkIds M} (h : SameIds s s') (h' : SameIds s' s'') :
    SameIds s s'' :=
  ⟨fun p => (h'.networkID p).trans (h.networkID p),
    fun p => (h'.networkIDManager p).trans (h.networkIDManager p)⟩

omit [DecidableEq M] in
theorem sameIds_setNext (s : NetworkIds M) (p : ObjectPointer) (next : Option ObjectPointer) :
    SameIds s (s.setNext p next) := by
  constructor <;>
    · intro q
      rw [setNext]
      by_cases hq : q = p
      · rw [hq, object_setObject]
      · rw [object_setObject_of_ne s _ hq]

theorem Threads.stop (h : Threads s chains)
    (hmem : p ∈ chains m (networkIDToHashIndex (s.objects p).networkID)) :
    ∃ s', s.stopTrackingNetworkIDObject m p = some s' ∧
      Threads s' (fun m b => (chains m b).erase p) ∧ SameIds s s' := by
  have hfind := h.follow_eq (fun nio => s.next nio = some p) m
    (networkIDToHashIndex (s.objects p).networkID)
  have hnodup := h.nodup m (networkIDToHashIndex (s.objects p).networkID)
  have hlinked := h.linked m (networkIDToHashIndex (s.objects p).networkID)
  have hother : ∀ m' b', ¬(m' = m ∧ b' = networkIDToHashIndex (s.objects p).networkID) →
      (chains m' b').erase p = chains m' b' := fun m' b' hne =>
    List.erase_of_not_mem fun hmem' => hne (h.apart hmem hmem')
  have hthreads : ∀ s' : NetworkIds M,
      (∀ m b, Linked s'.next ((s'.managers m).networkIdHash b) ((chains m b).erase p)) →
        Threads s' fun m b => (chains m b).erase p := fun s' hlinked' =>
    ⟨hlinked', fun m b => (h.nodup m b).erase p,
      fun hq hq' => h.apart (List.mem_of_mem_erase hq) (List.mem_of_mem_erase hq')⟩
  rw [stopTrackingNetworkIDObject]
  generalize networkIDToHashIndex (s.objects p).networkID = b at *
  cases hchain : chains m b with
  | nil =>
    rw [hchain] at hmem
    cases hmem
  | cons head chain =>
    rw [hchain] at hmem hfind hnodup hlinked
    have hhead := hlinked.1
    rw [hhead] at hfind ⊢
    dsimp only
    by_cases heq : head = p
    · rw [if_pos heq]
      refine ⟨_, rfl, hthreads _ fun m' b' => ?_, fun _ => rfl, fun _ => rfl⟩
      rw [networkIdHash_setHash]
      by_cases hsame : m' = m ∧ b' = b
      · rw [if_pos hsame, hsame.1, hsame.2, hchain, heq, List.erase_cons_head, ← heq]
        exact hlinked.2
      · rw [if_neg hsame, hother m' b' hsame]
        exact h.linked m' b'
    · rw [if_neg heq]
      have htail : p ∈ chain := (List.mem_cons.mp hmem).resolve_left (Ne.symm heq)
      obtain ⟨before, hbefore, hfound, hunlinked⟩ :=
        Linked.unlink (hhead ▸ hlinked) hnodup htail
      rw [hfound] at hfind
      rw [hfind]
      refine ⟨_, rfl, hthreads _ fun m' b' => ?_, sameIds_setNext s before _⟩
      rw [next_setNext]
      by_cases hsame : m' = m ∧ b' = b
      · rw [hsame.1, hsame.2, hchain]
        show Linked _ ((s.managers m).networkIdHash b) _
        rw [hhead]
        exact hunlinked
      · rw [hother m' b' hsame]
        refine (h.linked m' b').congr fun q hq => Function.update_of_ne (fun heq' => ?_) _ _
        rw [← hchain] at hbefore
        exact hsame (h.apart hbefore (heq' ▸ hq))

omit [DecidableEq M] in
theorem Threads.setObject (h : Threads s chains) (hfree : ∀ m b, p ∉ chains m b)
    (object : NetworkIDObject M) : Threads (s.setObject p object) chains where
  linked m b := by
    rw [next_setObject]
    refine (h.linked m b).congr fun q hq => Function.update_of_ne ?_ _ _
    rintro rfl
    exact hfree m b hq
  nodup := h.nodup
  apart := h.apart

/-- The chains with an object at the end of one of them. -/
def appended (chains : M → ℕ → List ObjectPointer) (m : M) (b : ℕ) (p : ObjectPointer) :
    M → ℕ → List ObjectPointer := fun m' b' =>
  if m' = m ∧ b' = b then chains m' b' ++ [p] else chains m' b'

theorem mem_appended {b : ℕ} {q : ObjectPointer} {m' : M} {b' : ℕ} :
    q ∈ appended chains m b p m' b' ↔ q ∈ chains m' b' ∨ q = p ∧ m' = m ∧ b' = b := by
  rw [appended]
  split
  · next hsame => simp [hsame.1, hsame.2]
  · next hne => simp [hne]

theorem Threads.append (h : Threads s chains) (hfree : ∀ m b, p ∉ chains m b) {b : ℕ}
    (hlinked : ∀ m' b', Linked s'.next ((s'.managers m').networkIdHash b')
      (appended chains m b p m' b')) : Threads s' (appended chains m b p) where
  linked := hlinked
  nodup m' b' := by
    rw [appended]
    split
    · refine List.nodup_append.mpr ⟨h.nodup m' b', List.nodup_singleton p, ?_⟩
      rintro q hq r hr rfl
      exact hfree m' b' (List.mem_singleton.mp hr ▸ hq)
    · exact h.nodup m' b'
  apart hq hq' := by
    obtain hin | ⟨rfl, rfl, rfl⟩ := mem_appended.mp hq
    · obtain hin' | ⟨rfl, -, -⟩ := mem_appended.mp hq'
      · exact h.apart hin hin'
      · exact absurd hin (hfree _ _)
    · obtain hin' | ⟨-, rfl, rfl⟩ := mem_appended.mp hq'
      · exact absurd hin' (hfree _ _)
      · exact ⟨rfl, rfl⟩

theorem Threads.track (h : Threads s chains) (hfree : ∀ m b, p ∉ chains m b) (m : M) :
    ∃ s', s.trackNetworkIDObject m p = some s' ∧
      Threads s' (appended chains m (networkIDToHashIndex (s.objects p).networkID) p) ∧
        SameIds s s' := by
  have hids := sameIds_setNext s p none
  have hnone : (s.setNext p none).next p = none := by
    rw [next_setNext, Function.update_self]
  have h₁ : Threads (s.setNext p none) chains := h.setObject hfree _
  rw [trackNetworkIDObject, ← hids.networkID p]
  generalize s.setNext p none = s₁ at *
  generalize networkIDToHashIndex (s₁.objects p).networkID = b
  have hfind := h₁.follow_eq (fun nio => s₁.next nio = none) m b
  have hnodup := h₁.nodup m b
  have hlinked := h₁.linked m b
  cases hchain : chains m b with
  | nil =>
    rw [hchain] at hlinked
    rw [show (s₁.managers m).networkIdHash b = none from hlinked]
    refine ⟨_, rfl, h₁.append hfree fun m' b' => ?_, hids.networkID, hids.networkIDManager⟩
    rw [networkIdHash_setHash, appended]
    by_cases hsame : m' = m ∧ b' = b
    · rw [if_pos hsame, if_pos hsame, hsame.1, hsame.2, hchain]
      exact ⟨rfl, hnone⟩
    · rw [if_neg hsame, if_neg hsame]
      exact h₁.linked m' b'
  | cons head chain =>
    rw [hchain] at hfind hnodup hlinked
    have hhead := hlinked.1
    rw [hhead] at hfind ⊢
    obtain ⟨last, hlast, hfound, happended⟩ :=
      Linked.append (hhead ▸ hlinked) hnodup (hchain ▸ hfree m b) hnone
    rw [hfound] at hfind
    dsimp only
    rw [hfind]
    refine ⟨_, rfl, h₁.append hfree fun m' b' => ?_, hids.trans (sameIds_setNext s₁ last _)⟩
    rw [next_setNext, appended]
    by_cases hsame : m' = m ∧ b' = b
    · rw [if_pos hsame, hsame.1, hsame.2, hchain]
      show Linked _ ((s₁.managers m).networkIdHash b) _
      rw [hhead]
      exact happended
    · rw [if_neg hsame]
      refine (h₁.linked m' b').congr fun q hq => Function.update_of_ne (fun heq => ?_) _ _
      rw [← hchain] at hlast
      exact hsame (h₁.apart hlast (heq ▸ hq))

/-! ### The invariant -/

/-- Every object with a manager, but for one that is being changed, is on the chain of its id. -/
structure Sound (out : Option ObjectPointer) (s : NetworkIds M) : Prop where
  tracked : ∃ chains, Threads s chains ∧ ∀ m b q, q ∈ chains m b ↔ some q ≠ out ∧
    (s.objects q).networkIDManager = some m ∧ networkIDToHashIndex (s.objects q).networkID = b
  unique : ∀ {m q r}, some q ≠ out → some r ≠ out → (s.objects q).networkIDManager = some m →
    (s.objects r).networkIDManager = some m →
      (s.objects q).networkID = (s.objects r).networkID → q = r
  assigned : ∀ {q m}, some q ≠ out → (s.objects q).networkIDManager = some m →
    (s.objects q).networkID ≠ unassignedNetworkId

omit [DecidableEq M] in
theorem sound_initial (startingOffset : M → UInt64) : Sound none (initial startingOffset) where
  tracked := by
    refine ⟨fun _ _ => [], ⟨fun _ _ => rfl, fun _ _ => List.nodup_nil, fun hq => ?_⟩, ?_⟩
    · cases hq
    · intro m b q
      simp [initial, NetworkIDObject.new]
  unique _ _ hq := by cases hq
  assigned _ hq := by cases hq

omit [DecidableEq M] in
theorem Sound.lookup (h : Sound out s) (m : M) (x : UInt64) :
    ∃ found, s.getBaseObjectFromId m x = some found ∧ ∀ p, found = some p ↔
      some p ≠ out ∧ (s.objects p).networkIDManager = some m ∧ (s.objects p).networkID = x := by
  obtain ⟨chains, hthreads, hmem⟩ := h.tracked
  refine ⟨_, hthreads.follow_eq _ m (networkIDToHashIndex x), fun p => ⟨fun hfind => ?_, ?_⟩⟩
  · obtain ⟨hout, hmanager, -⟩ := (hmem m _ p).mp (List.mem_of_find?_eq_some hfind)
    exact ⟨hout, hmanager, by simpa using List.find?_some hfind⟩
  · rintro ⟨hout, hmanager, rfl⟩
    have hp := (hmem m _ p).mpr ⟨hout, hmanager, rfl⟩
    cases hfind : (chains m (networkIDToHashIndex (s.objects p).networkID)).find?
        fun nio => (s.objects nio).networkID = (s.objects p).networkID with
    | none => exact absurd (List.find?_eq_none.mp hfind p hp) (by simp)
    | some q =>
      obtain ⟨hout', hmanager', -⟩ := (hmem m _ q).mp (List.mem_of_find?_eq_some hfind)
      have hid : (s.objects q).networkID = (s.objects p).networkID := by
        simpa using List.find?_some hfind
      exact congrArg some (h.unique hout' hout hmanager' hmanager hid)

/-! ### New ids -/

/-- No object of the manager has the id, but for one that is being changed. -/
def Free (s : NetworkIds M) (out : Option ObjectPointer) (m : M) (id : UInt64) : Prop :=
  ∀ q, some q ≠ out → (s.objects q).networkIDManager = some m → (s.objects q).networkID ≠ id

omit [DecidableEq M] in
theorem Sound.nextFreeId (h : Sound out s) (m : M) {fuel : ℕ} {startingOffset : UInt64}
    (hfree : ∃ k < fuel, s.Free out m (startingOffset + UInt64.ofNat (k + 1))) :
    ∃ k < fuel, s.nextFreeId m fuel startingOffset = some (startingOffset + UInt64.ofNat (k + 1)) ∧
      s.Free out m (startingOffset + UInt64.ofNat (k + 1)) := by
  induction fuel generalizing startingOffset with
  | zero =>
    obtain ⟨k, hk, -⟩ := hfree
    omega
  | succ fuel ih =>
    obtain ⟨found, hlookup, hfound⟩ := h.lookup m (startingOffset + 1)
    rw [NetworkIds.nextFreeId, hlookup]
    cases found with
    | none =>
      refine ⟨0, Nat.succ_pos fuel, rfl, fun q hout hmanager hid => ?_⟩
      cases (hfound q).mpr ⟨hout, hmanager, hid⟩
    | some q =>
      have hnext : ∀ k, startingOffset + UInt64.ofNat (k + 1 + 1) =
          startingOffset + 1 + UInt64.ofNat (k + 1) := by
        intro k
        rw [UInt64.ofNat_add (k + 1) 1, UInt64.add_comm (UInt64.ofNat (k + 1)), UInt64.add_assoc]
        rfl
      obtain ⟨k, hk, hk'⟩ := hfree
      cases k with
      | zero =>
        obtain ⟨hout, hmanager, hid⟩ := (hfound q).mp rfl
        exact absurd hid (hk' q hout hmanager)
      | succ k =>
        obtain ⟨k', hlt, heq, hfree'⟩ := ih ⟨k, Nat.lt_of_succ_lt_succ hk, hnext k ▸ hk'⟩
        refine ⟨k' + 1, Nat.succ_lt_succ hlt, ?_, ?_⟩
        · rw [hnext]
          exact heq
        · rw [hnext]
          exact hfree'

omit [DecidableEq M] in
theorem ofNat_injective {i j : ℕ} (hi : i < objectSteps) (hj : j < objectSteps)
    (h : UInt64.ofNat (i + 1) = UInt64.ofNat (j + 1)) : i = j := by
  rw [objectSteps] at hi hj
  have hnat := congrArg UInt64.toNat h
  rw [UInt64.toNat_ofNat', UInt64.toNat_ofNat'] at hnat
  omega

omit [DecidableEq M] in
theorem exists_free (s : NetworkIds M) (out : Option ObjectPointer) (m : M)
    (startingOffset : UInt64) :
    ∃ k < objectSteps, s.Free out m (startingOffset + UInt64.ofNat (k + 1)) := by
  by_contra hnone
  have hused : ∀ k : Fin objectSteps, ∃ q,
      (s.objects q).networkID = startingOffset + UInt64.ofNat (k + 1) := by
    intro k
    by_contra hfree
    exact hnone ⟨k, k.isLt, fun q _ _ hid => hfree ⟨q, hid⟩⟩
  choose user huser using hused
  have hinjective : Function.Injective user := by
    intro i j hij
    have hid := (huser i).symm.trans ((congrArg (fun q => (s.objects q).networkID) hij).trans
      (huser j))
    exact Fin.ext (ofNat_injective i.isLt j.isLt ((UInt64.add_right_inj startingOffset).mp hid))
  have hcard := Fintype.card_le_of_injective user hinjective
  rw [Fintype.card_fin, Fintype.card_fin, objectSteps] at hcard
  omega

theorem Sound.getNewNetworkID (h : Sound out s) (m : M) :
    ∃ id s', s.getNewNetworkID m = some (id, s') ∧ id ≠ unassignedNetworkId ∧ s.Free out m id ∧
      s'.objects = s.objects ∧ Sound out s' := by
  have hsound : ∀ startingOffset, Sound out
      (s.setManager m { s.managers m with startingOffset := startingOffset }) := by
    intro startingOffset
    obtain ⟨chains, hthreads, hmem⟩ := h.tracked
    refine ⟨⟨chains, ⟨fun m' b => ?_, hthreads.nodup, hthreads.apart⟩, hmem⟩, h.unique, h.assigned⟩
    have hlinked := hthreads.linked m' b
    by_cases hm : m' = m
    · rw [hm] at hlinked ⊢
      rw [manager_setManager]
      exact hlinked
    · rw [manager_setManager_of_ne s _ hm]
      exact hlinked
  obtain ⟨k, -, hfirst, hfree⟩ := h.nextFreeId m (exists_free s out m (s.managers m).startingOffset)
  rw [NetworkIds.getNewNetworkID, hfirst]
  by_cases hunassigned :
      (s.managers m).startingOffset + UInt64.ofNat (k + 1) = unassignedNetworkId
  · obtain ⟨k', hk', hsecond, hfree'⟩ := h.nextFreeId m (exists_free s out m unassignedNetworkId)
    refine ⟨unassignedNetworkId + UInt64.ofNat (k' + 1), s.setManager m _, ?_, fun hid => ?_,
      hfree', rfl, hsound (unassignedNetworkId + UInt64.ofNat (k' + 1))⟩
    · simp only [hunassigned, hsecond, Option.bind_eq_bind, Option.bind_some, if_true]
    · have hzero : UInt64.ofNat (k' + 1) = 0 := by
        refine (UInt64.add_right_inj unassignedNetworkId).mp (hid.trans ?_)
        rfl
      have hnat := congrArg UInt64.toNat hzero
      rw [objectSteps] at hk'
      rw [UInt64.toNat_ofNat'] at hnat
      change (k' + 1) % 2 ^ 64 = 0 at hnat
      omega
  · refine ⟨_, s.setManager m _, ?_, hunassigned, hfree, rfl,
      hsound ((s.managers m).startingOffset + UInt64.ofNat (k + 1))⟩
    simp only [hunassigned, Option.bind_eq_bind, Option.bind_some, if_false]

/-! ### The steps of the setters -/

theorem Sound.stopTracking (h : Sound none s) (p : ObjectPointer) :
    ∃ s', s.stopTracking p = some s' ∧ Sound (some p) s' ∧ SameIds s s' := by
  obtain ⟨chains, hthreads, hmem⟩ := h.tracked
  have hsound : ∀ s' chains', SameIds s s' → Threads s' chains' →
      (∀ m b q, q ∈ chains' m b ↔ q ≠ p ∧ q ∈ chains m b) → Sound (some p) s' := by
    intro s' chains' hids hthreads' hmem'
    refine ⟨⟨chains', hthreads', fun m b q => ?_⟩, fun {m q r} _ _ hq hr hid => ?_, ?_⟩
    · rw [hmem', hmem, hids.networkID, hids.networkIDManager]
      simp
    · rw [hids.networkIDManager] at hq hr
      rw [hids.networkID, hids.networkID] at hid
      exact h.unique (by simp) (by simp) hq hr hid
    · intro q m _ hq
      rw [hids.networkIDManager] at hq
      rw [hids.networkID]
      exact h.assigned (by simp) hq
  rw [NetworkIds.stopTracking]
  cases hmanager : (s.objects p).networkIDManager with
  | none =>
    refine ⟨s, rfl, hsound s chains (SameIds.refl s) hthreads fun m b q => ?_, SameIds.refl s⟩
    refine ⟨fun hq => ⟨?_, hq⟩, fun hq => hq.2⟩
    rintro rfl
    rw [((hmem m b q).mp hq).2.1] at hmanager
    cases hmanager
  | some m =>
    obtain ⟨s', hstop, hthreads', hids⟩ :=
      hthreads.stop ((hmem m _ p).mpr ⟨by simp, hmanager, rfl⟩)
    exact ⟨s', hstop, hsound s' _ hids hthreads' fun m b q => (hthreads.nodup m b).mem_erase_iff,
      hids⟩

omit [DecidableEq M] in
theorem Sound.setObject (h : Sound (some p) s) (object : NetworkIDObject M) :
    Sound (some p) (s.setObject p object) := by
  obtain ⟨chains, hthreads, hmem⟩ := h.tracked
  refine ⟨⟨chains, hthreads.setObject (fun m b hp => ((hmem m b p).mp hp).1 rfl) object,
    fun m b q => ?_⟩, fun {m q r} hq hr => ?_, fun {q m} hq => ?_⟩
  · rw [hmem]
    refine and_congr_right fun hq => ?_
    rw [objects_setObject s object hq]
  · rw [objects_setObject s object hq, objects_setObject s object hr]
    exact h.unique hq hr
  · rw [objects_setObject s object hq]
    exact h.assigned hq

omit [DecidableEq M] in
theorem Sound.untracked (h : Sound (some p) s) (hnone : (s.objects p).networkIDManager = none) :
    Sound none s := by
  obtain ⟨chains, hthreads, hmem⟩ := h.tracked
  have hne : ∀ {q m}, (s.objects q).networkIDManager = some m → some q ≠ some p := by
    rintro q m hq heq
    rw [Option.some.inj heq, hnone] at hq
    cases hq
  refine ⟨⟨chains, hthreads, fun m b q => ?_⟩, fun _ _ hq hr => h.unique (hne hq) (hne hr) hq hr,
    fun _ hq => h.assigned (hne hq) hq⟩
  rw [hmem]
  exact ⟨fun hq => ⟨by simp, hq.2⟩, fun hq => ⟨hne hq.2.1, hq.2⟩⟩

theorem Sound.trackNetworkIDObject (h : Sound (some p) s)
    (hmanager : (s.objects p).networkIDManager = some m)
    (hassigned : (s.objects p).networkID ≠ unassignedNetworkId)
    (hfree : s.Free (some p) m (s.objects p).networkID) :
    ∃ s', s.trackNetworkIDObject m p = some s' ∧ Sound none s' := by
  obtain ⟨chains, hthreads, hmem⟩ := h.tracked
  obtain ⟨s', htrack, hthreads', hids⟩ :=
    hthreads.track (fun m b hp => ((hmem m b p).mp hp).1 rfl) m
  refine ⟨s', htrack, ⟨_, hthreads', fun m' b q => ?_⟩, fun {m' q r} _ _ hq hr hid => ?_,
    fun {q m'} _ hq => ?_⟩
  · rw [hids.networkID, hids.networkIDManager, mem_appended, hmem]
    constructor
    · rintro (⟨-, hq⟩ | ⟨rfl, rfl, rfl⟩)
      · exact ⟨by simp, hq⟩
      · exact ⟨by simp, hmanager, rfl⟩
    · rintro ⟨-, hq, hb⟩
      by_cases hqp : q = p
      · subst hqp
        exact .inr ⟨rfl, Option.some.inj (hq.symm.trans hmanager), hb.symm⟩
      · exact .inl ⟨by simpa using hqp, hq, hb⟩
  · rw [hids.networkIDManager] at hq hr
    rw [hids.networkID, hids.networkID] at hid
    by_cases hqp : q = p
    · by_cases hrp : r = p
      · exact hqp.trans hrp.symm
      · subst hqp
        rw [hmanager] at hq
        obtain rfl := Option.some.inj hq
        exact absurd hid.symm (hfree r (by simpa using hrp) hr)
    · by_cases hrp : r = p
      · subst hrp
        rw [hmanager] at hr
        obtain rfl := Option.some.inj hr
        exact absurd hid (hfree q (by simpa using hqp) hq)
      · exact h.unique (by simpa using hqp) (by simpa using hrp) hq hr hid
  · rw [hids.networkIDManager] at hq
    rw [hids.networkID]
    by_cases hqp : q = p
    · rw [hqp]
      exact hassigned
    · exact h.assigned (by simpa using hqp) hq

omit [DecidableEq M] in
theorem free_of_not_inUse {id : UInt64} {object : NetworkIDObject M} (hids : SameIds s s')
    (h : ¬s.InUse m p id) : (s'.setObject p object).Free (some p) m id := by
  intro q hq
  rw [objects_setObject s' object hq, hids.networkIDManager, hids.networkID]
  exact fun hmanager hid => h ⟨q, fun heq => hq (congrArg some heq), hmanager, hid⟩

theorem Sound.setNetworkIDManager (h : Sound none s) {manager : Option M}
    (hallowed : s.Allowed (.setNetworkIDManager p manager)) :
    ∃ s', s.setNetworkIDManager p manager = some s' ∧ Sound none s' := by
  rw [NetworkIds.setNetworkIDManager]
  by_cases hsame : manager = (s.objects p).networkIDManager
  · exact ⟨s, if_pos hsame, h⟩
  · obtain ⟨s₁, hstop, hsound, hids⟩ := h.stopTracking p
    rw [if_neg hsame, hstop]
    simp only [Option.bind_eq_bind, Option.bind_some]
    cases manager with
    | none =>
      refine ⟨_, rfl, ((hsound.setObject _).setObject _).untracked ?_⟩
      rw [object_setObject, object_setObject]
    | some m =>
      dsimp only
      rw [object_setObject]
      by_cases hunassigned : (s₁.objects p).networkID = unassignedNetworkId
      · have hsound₂ := hsound.setObject { s₁.objects p with networkIDManager := some m }
        obtain ⟨id, s₃, hnew, hassigned, hfree, hobjects, hsound₃⟩ := hsound₂.getNewNetworkID m
        rw [if_pos hunassigned, hnew]
        simp only [Option.bind_some]
        apply (hsound₃.setObject _).trackNetworkIDObject
        · rw [object_setObject, hobjects, object_setObject]
        · rw [object_setObject]
          exact hassigned
        · intro q hq
          rw [object_setObject, objects_setObject s₃ _ hq, hobjects]
          exact hfree q hq
      · rw [if_neg hunassigned]
        apply (hsound.setObject _).trackNetworkIDObject
        · rw [object_setObject]
        · rw [object_setObject]
          exact hunassigned
        · rw [object_setObject]
          apply free_of_not_inUse hids
          rw [hids.networkID p]
          exact hallowed m rfl (hids.networkID p ▸ hunassigned)

theorem Sound.setNetworkID (h : Sound none s) {id : UInt64}
    (hallowed : s.Allowed (.setNetworkID p id)) :
    ∃ s', s.setNetworkID p id = some s' ∧ Sound none s' := by
  rw [NetworkIds.setNetworkID]
  by_cases hsame : (s.objects p).networkID = id
  · exact ⟨s, if_pos hsame, h⟩
  · rw [if_neg hsame]
    by_cases hunassigned : id = unassignedNetworkId
    · rw [if_pos hunassigned]
      exact h.setNetworkIDManager fun m hm => by cases hm
    · obtain ⟨s₁, hstop, hsound, hids⟩ := h.stopTracking p
      rw [if_neg hunassigned, hstop]
      simp only [Option.bind_eq_bind, Option.bind_some]
      rw [track, object_setObject]
      dsimp only
      cases hmanager : (s₁.objects p).networkIDManager with
      | none =>
        refine ⟨_, rfl, (hsound.setObject _).untracked ?_⟩
        rw [object_setObject]
      | some m =>
        apply (hsound.setObject _).trackNetworkIDObject
        · rw [object_setObject]
        · rw [object_setObject]
          exact hunassigned
        · rw [object_setObject]
          exact free_of_not_inUse hids (hallowed m ((hids.networkIDManager p).symm.trans hmanager))

theorem Sound.destroy (h : Sound none s) (p : ObjectPointer) :
    ∃ s', s.destroy p = some s' ∧ Sound none s' := by
  obtain ⟨s₁, hstop, hsound, -⟩ := h.stopTracking p
  rw [NetworkIds.destroy, hstop]
  refine ⟨_, rfl, (hsound.setObject _).untracked ?_⟩
  rw [object_setObject]
  rfl

/-! ### Runs -/

theorem Sound.perform (h : Sound none s) {op : Operation M} (hallowed : s.Allowed op) :
    ∃ s', s.perform op = some s' ∧ Sound none s' := by
  cases op with
  | setNetworkIDManager p manager => exact h.setNetworkIDManager hallowed
  | setNetworkID p id => exact h.setNetworkID hallowed
  | destroy p => exact h.destroy p
  | getNewNetworkID m =>
    obtain ⟨id, s', hnew, -, -, -, hsound⟩ := h.getNewNetworkID m
    rw [NetworkIds.perform, hnew]
    exact ⟨s', rfl, hsound⟩

theorem Reachable.sound (h : Reachable s) : Sound none s := by
  induction h with
  | initial startingOffset => exact sound_initial startingOffset
  | perform _ hallowed hperform ih =>
    obtain ⟨s', hs', hsound⟩ := ih.perform hallowed
    obtain rfl := Option.some.inj (hperform.symm.trans hs')
    exact hsound

/-- In every reachable state the lookup of network ids is exact, and new ids are new. -/
theorem lookup_exact (h : Reachable s) : Exact s where
  lookup m x := by
    obtain ⟨found, hlookup, hfound⟩ := h.sound.lookup m x
    refine ⟨found, hlookup, fun p => (hfound p).trans ?_⟩
    exact and_iff_right (by simp)
  new m := by
    obtain ⟨id, s', hnew, hassigned, hfree, -⟩ := h.sound.getNewNetworkID m
    exact ⟨id, s', hnew, hassigned, fun p => hfree p (by simp)⟩
  assigned p m hmanager := h.sound.assigned (by simp) hmanager
  returns op hallowed := by
    obtain ⟨s', hs', -⟩ := h.sound.perform hallowed
    exact ⟨s', hs'⟩

/-- Two objects get ids of one manager, and the first one is destroyed. -/
def twoObjects : List (Operation Unit) :=
  [.setNetworkIDManager 1 (some ()), .setNetworkIDManager 2 (some ()), .destroy 1]

theorem lookup_exact_two_objects :
    ∃ s, twoObjects.foldlM perform (initial fun _ => 7) = some s ∧ Exact s := by
  refine ⟨_, rfl, lookup_exact ?_⟩
  have h₁ := @Reachable.perform Unit _ _ _ (.setNetworkIDManager 1 (some ()))
    (.initial fun _ => 7) (fun _ _ hne => absurd rfl hne) rfl
  have h₂ := @Reachable.perform Unit _ _ _ (.setNetworkIDManager 2 (some ())) h₁
    (fun _ _ hne => absurd rfl hne) rfl
  exact @Reachable.perform Unit _ _ _ (.destroy 1) h₂ trivial rfl

end NetworkIds

end SLikeNet
