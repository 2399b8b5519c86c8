import SLikeNet.DatagramSize

/-! Which packets of the resend list an update sends again: the loop looks at the head of the
list only, and stops at the first packet that is not due. -/

namespace SLikeNet

namespace ReliabilityLayer

open ResendView

variable {s t : ReliabilityLayer} {p q : PacketPtr} {u : UpdateInput} {l : List PacketPtr}

/-- The times at which the packets are to be sent again. -/
def nextActionTimes (s : ReliabilityLayer) (p : PacketPtr) : ℕ := (s.packets p).nextActionTime

theorem nextActionTimes_modifyPacket (s : ReliabilityLayer) (p : PacketPtr)
    {f : InternalPacket → InternalPacket}
    (hf : (f (s.packets p)).nextActionTime = (s.packets p).nextActionTime) :
    (s.modifyPacket p f).nextActionTimes = s.nextActionTimes := by
  funext q
  show (Function.update s.packets p (f (s.packets p)) q).nextActionTime = _
  by_cases hq : q = p
  · rw [hq, Function.update_self, hf]
    rfl
  · rw [Function.update_of_ne hq]
    rfl

theorem nextActionTimes_setNextActionTime (s : ReliabilityLayer) (p : PacketPtr) :
    (s.setNextActionTime u p).nextActionTimes =
      Function.update s.nextActionTimes p (addTime u.rto u.time) := by
  funext q
  show (Function.update s.packets p _ q).nextActionTime = _
  by_cases hq : q = p
  · rw [hq, Function.update_self, Function.update_self]
  · rw [Function.update_of_ne hq, Function.update_of_ne hq]
    rfl

theorem nextActionTimes_incrementTimesSent (s : ReliabilityLayer) (p : PacketPtr) :
    (s.incrementTimesSent p).nextActionTimes = s.nextActionTimes :=
  nextActionTimes_modifyPacket s p rfl

theorem nextActionTimes_clearAllDatagramSizes (s : ReliabilityLayer) :
    s.clearAllDatagramSizes.nextActionTimes = s.nextActionTimes := rfl

theorem resendView_clearAllDatagramSizes (s : ReliabilityLayer) :
    s.clearAllDatagramSizes.resendView = s.resendView := rfl

theorem nextActionTimes_pushDatagram (s : ReliabilityLayer) :
    s.pushDatagram.nextActionTimes = s.nextActionTimes := by
  unfold pushDatagram
  split <;> rfl

theorem nextActionTimes_resendPacket (s : ReliabilityLayer) (p : PacketPtr) :
    (s.resendPacket u p).nextActionTimes =
      Function.update s.nextActionTimes p (addTime u.rto u.time) := by
  show (((((s.removeFromList p false).pushPacket p true).incrementTimesSent p).setNextActionTime u
    p).nextActionTimes) = _
  rw [nextActionTimes_setNextActionTime, nextActionTimes_incrementTimesSent]
  rfl

theorem nextActionTimes_popOutgoing (s : ReliabilityLayer) :
    s.popOutgoing.nextActionTimes = s.nextActionTimes := by
  funext q
  rw [nextActionTimes, packets_popOutgoing]
  rfl

theorem nextActionTimes_sendPacket (s : ReliabilityLayer) (p : PacketPtr) :
    (s.sendPacket u p).nextActionTimes =
      if (s.packets p).reliability.isReliable then
        Function.update s.nextActionTimes p (addTime u.rto u.time)
      else s.nextActionTimes := by
  have hpush : ∀ (t : ReliabilityLayer) (b : Bool),
      ((t.countBytesSent u p).pushPacket p b).nextActionTimes = t.nextActionTimes :=
    fun _ _ => rfl
  unfold sendPacket
  dsimp only
  rw [nextActionTimes_incrementTimesSent, hpush]
  unfold registerSend
  rw [packets_popOutgoing, ← nextActionTimes_popOutgoing s]
  split
  · have hnumber := nextActionTimes_modifyPacket s.popOutgoing p (f := fun q =>
      { q with
        messageNumberAssigned := true
        reliableMessageNumber := s.popOutgoing.sendReliableMessageNumberIndex }) rfl
    rw [← hnumber, ← nextActionTimes_setNextActionTime]
    rfl
  · split <;> rfl

theorem isDue_sent (u : UpdateInput) : isDue u.time (addTime u.rto u.time) = false := by
  have htime := u.time_lt
  have hle := u.le_rto
  have hrto := u.rto_le
  apply decide_eq_false
  unfold addTime
  omega

/-- The resend loop has taken the first `k` packets of the list `l` and put them back at its
end. `times` are the times before the loop. -/
structure Resending (u : UpdateInput) (times : PacketPtr → ℕ) (l : List PacketPtr) (k : ℕ)
    (s : ReliabilityLayer) : Prop where
  inv : Inv s.resendView (l.drop k ++ l.take k)
  le_length : k ≤ l.length
  taken_due : ∀ p ∈ l.take k, isDue u.time (times p) = true
  taken : ∀ p ∈ l.take k, isDue u.time (s.nextActionTimes p) = false
  waiting : ∀ p ∈ l.drop k, s.nextActionTimes p = times p

namespace Resending

variable {times : PacketPtr → ℕ} {k : ℕ}

theorem pushDatagram (h : Resending u times l k s) : Resending u times l k s.pushDatagram where
  inv := by
    rw [resendView_pushDatagram]
    exact h.inv
  le_length := h.le_length
  taken_due := h.taken_due
  taken := by
    rw [nextActionTimes_pushDatagram]
    exact h.taken
  waiting := by
    rw [nextActionTimes_pushDatagram]
    exact h.waiting

theorem head_eq (h : Resending u times l k s) (hhead : s.resendLinkedList.head = some p)
    (hdue : isDue u.time (s.packets p).nextActionTime = true) :
    l.drop k = p :: l.drop (k + 1) ∧ l.take (k + 1) = l.take k ++ [p] ∧ k < l.length := by
  have hlist := h.inv.represents.head_eq.symm.trans hhead
  cases hdrop : l.drop k with
  | nil =>
    rw [hdrop, List.nil_append] at hlist
    have hnot := h.taken p (List.mem_of_mem_head? hlist)
    rw [show s.nextActionTimes p = (s.packets p).nextActionTime from rfl, hdue] at hnot
    cases hnot
  | cons q rest =>
    rw [hdrop] at hlist
    obtain rfl : q = p := Option.some.inj hlist
    have hlt : k < l.length := by
      by_contra hge
      rw [List.drop_eq_nil_of_le (Nat.le_of_not_lt hge)] at hdrop
      cases hdrop
    have hget := List.drop_eq_getElem_cons hlt
    rw [hdrop] at hget
    obtain ⟨hq, hrest⟩ := List.cons.inj hget
    refine ⟨by rw [hrest], ?_, hlt⟩
    rw [List.take_add_one, List.getElem?_eq_getElem hlt, ← hq]
    rfl

theorem resendPacket (h : Resending u times l k s) (hhead : s.resendLinkedList.head = some p)
    (hdue : isDue u.time (s.packets p).nextActionTime = true) :
    Resending u times l (k + 1) (s.resendPacket u p) := by
  obtain ⟨hdrop, htake, hlt⟩ := h.head_eq hhead hdue
  have hinv := h.inv
  rw [hdrop, List.cons_append] at hinv
  have hnodup := List.nodup_cons.mp hinv.represents.nodup
  have hother : ∀ q, q ≠ p → (s.resendPacket u p).nextActionTimes q = s.nextActionTimes q := by
    intro q hq
    rw [nextActionTimes_resendPacket, Function.update_of_ne hq]
  have hwaiting : s.nextActionTimes p = times p := h.waiting p (by rw [hdrop]; exact List.mem_cons_self)
  constructor
  · have hresent := resendPacket_inv (u := u) hinv
    rw [List.append_assoc, ← htake] at hresent
    exact hresent
  · exact hlt
  · intro q hq
    rw [htake] at hq
    rcases List.mem_append.mp hq with hq | hq
    · exact h.taken_due q hq
    · rw [List.mem_singleton.mp hq, ← hwaiting]
      exact hdue
  · intro q hq
    rw [htake] at hq
    rcases List.mem_append.mp hq with hq | hq
    · rw [hother q (fun he => hnodup.1 (he ▸ List.mem_append_right _ hq))]
      exact h.taken q hq
    · rw [List.mem_singleton.mp hq, nextActionTimes_resendPacket, Function.update_self]
      exact isDue_sent u
  · intro q hq
    rw [hother q (fun he => hnodup.1 (he ▸ List.mem_append_left _ hq))]
    exact h.waiting q (by rw [hdrop]; exact List.mem_cons_of_mem p hq)

theorem list_ne_nil (h : Resending u times l k s) (hpos : 0 < k) :
    s.resendLinkedList.head ≠ none := by
  intro hnone
  have hlist := List.head?_eq_none_iff.mp (h.inv.represents.head_eq.symm.trans hnone)
  have hlength := congrArg List.length hlist
  have hle := h.le_length
  rw [List.length_append, List.length_drop, List.length_take, List.length_nil] at hlength
  omega

end Resending

/-- The loop finds nothing to send at the head of the list. -/
def Stopped (u : UpdateInput) (s : ReliabilityLayer) : Prop :=
  ∀ p, s.resendLinkedList.head = some p → isDue u.time (s.packets p).nextActionTime = false

theorem Stopped.pushDatagram (h : Stopped u s) : Stopped u s.pushDatagram := by
  unfold ReliabilityLayer.pushDatagram
  split
  · exact h
  · exact h

namespace Resending

variable {times : PacketPtr → ℕ} {k fuel : ℕ}

theorem resendDatagram_pushed (h : Resending u times l k s) (hpos : 0 < k)
    (hfuel : l.length < k + fuel) :
    (resendDatagram u fuel true s).1 = true ∧
      (∃ k', k ≤ k' ∧ Resending u times l k' (resendDatagram u fuel true s).2) ∧
      (resendDatagram u fuel true s).2.datagrams.datagramSizeSoFar = 0 := by
  induction fuel generalizing k s with
  | zero => exact absurd h.le_length (Nat.not_le_of_lt hfuel)
  | succ fuel ih =>
    have hclosed : Resending u times l k s.pushDatagram := h.pushDatagram
    unfold resendDatagram
    cases hhead : s.resendLinkedList.head with
    | none => exact absurd hhead (h.list_ne_nil hpos)
    | some p =>
      dsimp only
      split
      · rename_i hdue
        split
        · exact ⟨rfl, ⟨k, Nat.le_refl k, hclosed⟩, datagramSizeSoFar_pushDatagram s⟩
        · obtain ⟨hpushed, ⟨k', hle, hnext⟩, hsize⟩ := ih (h.resendPacket hhead hdue)
            (Nat.succ_pos k) (by omega)
          exact ⟨hpushed, ⟨k', Nat.le_of_succ_le hle, hnext⟩, hsize⟩
      · exact ⟨rfl, ⟨k, Nat.le_refl k, hclosed⟩, datagramSizeSoFar_pushDatagram s⟩

/-- A datagram that stays empty says that the head is not due: the size of the head is no
reason to stop. -/
theorem resendDatagram (h : Resending u times l k s)
    (hempty : s.datagrams.datagramSizeSoFar = 0) (hfuel : l.length < k + fuel) :
    ((resendDatagram u fuel false s).1 = false ∧
        Resending u times l k (resendDatagram u fuel false s).2 ∧
        Stopped u (resendDatagram u fuel false s).2) ∨
      ((resendDatagram u fuel false s).1 = true ∧
        (∃ k', k < k' ∧ Resending u times l k' (resendDatagram u fuel false s).2) ∧
        (resendDatagram u fuel false s).2.datagrams.datagramSizeSoFar = 0) := by
  cases fuel with
  | zero => exact absurd h.le_length (Nat.not_le_of_lt hfuel)
  | succ fuel =>
    unfold ReliabilityLayer.resendDatagram
    cases hhead : s.resendLinkedList.head with
    | none =>
      refine .inl ⟨rfl, h, fun p hp => ?_⟩
      rw [hhead] at hp
      cases hp
    | some p =>
      dsimp only
      split
      · rename_i hdue
        obtain ⟨rest, hlist⟩ := h.inv.represents.head_mem hhead
        have hmem : p ∈ l.drop k ++ l.take k := by
          rw [hlist]
          exact List.mem_cons_self
        have hfits := exceedsDatagram_empty (h.inv.sized p hmem) (h.inv.headerLength_eq p hmem) hempty
        obtain ⟨hpushed, ⟨k', hle, hnext⟩, hsize⟩ :=
          (h.resendPacket hhead hdue).resendDatagram_pushed (Nat.succ_pos k)
            (show l.length < k + 1 + fuel by omega)
        rw [if_neg (by rw [hfits]; exact Bool.false_ne_true)]
        exact .inr ⟨hpushed, ⟨k', hle, hnext⟩, hsize⟩
      · rename_i hdue
        have hstopped : Stopped u s := by
          intro q hq
          rw [← Option.some.inj (hhead.symm.trans hq)]
          exact Bool.eq_false_of_not_eq_true hdue
        exact .inl ⟨rfl, h.pushDatagram, hstopped.pushDatagram⟩

theorem resendLoop {retransmissionBandwidth : ℤ} (h : Resending u times l k s)
    (hempty : s.datagrams.datagramSizeSoFar = 0) (hfuel : l.length < k + fuel)
    (hleft : (bitsToBytes (resendLoop u retransmissionBandwidth fuel
      s).datagrams.allDatagramSizesSoFar : ℤ) < retransmissionBandwidth) :
    ∃ k', Resending u times l k' (resendLoop u retransmissionBandwidth fuel s) ∧
      Stopped u (resendLoop u retransmissionBandwidth fuel s) := by
  induction fuel generalizing k s with
  | zero => exact absurd h.le_length (Nat.not_le_of_lt hfuel)
  | succ fuel ih =>
    have hcount : s.messagesInResendBuffer = l.length := by
      have heq := h.inv.messagesInResendBuffer_eq
      have hle := h.le_length
      rw [List.length_append, List.length_drop, List.length_take] at heq
      exact heq.trans (by omega)
    have hdatagram := h.resendDatagram hempty
      (show l.length < k + (s.messagesInResendBuffer + 1) by omega)
    unfold ReliabilityLayer.resendLoop at hleft ⊢
    dsimp only at hleft ⊢
    split at hleft
    · rename_i hbandwidth
      rw [if_pos hbandwidth]
      rcases hdatagram with ⟨hpushed, hnext, hstopped⟩ | ⟨hpushed, ⟨k', hlt, hnext⟩, hsize⟩
      · rw [hpushed] at hleft ⊢
        exact ⟨k, hnext, hstopped⟩
      · rw [if_pos hpushed] at hleft ⊢
        exact ih hnext hsize (by omega) hleft
    · rename_i hbandwidth
      exact absurd hleft hbandwidth

theorem none_due_iff (h : Resending u times l k s) (hstopped : Stopped u s) :
    (∀ p ∈ l.drop k ++ l.take k, isDue u.time (s.nextActionTimes p) = false) ↔
      l.Pairwise fun p q => isDue u.time (times q) = true → isDue u.time (times p) = true := by
  have hsplit := List.take_append_drop k l
  constructor
  · intro hnone
    have hrest : ∀ p ∈ l.drop k, isDue u.time (times p) = false := by
      intro p hp
      rw [← h.waiting p hp]
      exact hnone p (List.mem_append_left _ hp)
    rw [← hsplit, List.pairwise_append]
    refine ⟨List.pairwise_of_forall_mem_list fun p hp q _ _ => h.taken_due p hp, ?_,
      fun p hp q _ _ => h.taken_due p hp⟩
    exact List.pairwise_of_forall_mem_list fun p _ q hq hdue => by
      rw [hrest q hq] at hdue
      cases hdue
  · intro hfirst p hp
    rcases List.mem_append.mp hp with hp | hp
    · cases hdrop : l.drop k with
      | nil =>
        rw [hdrop] at hp
        cases hp
      | cons a rest =>
        -- the head of what is left is not due, so nothing behind it is
        have hhead : s.resendLinkedList.head = some a := by
          rw [show s.resendLinkedList.head = _ from h.inv.represents.head_eq, hdrop]
          rfl
        have ha : isDue u.time (times a) = false := by
          rw [← h.waiting a (by rw [hdrop]; exact List.mem_cons_self)]
          exact hstopped a hhead
        rw [h.waiting p hp]
        rw [hdrop] at hp
        rcases List.mem_cons.mp hp with rfl | hp
        · exact ha
        · apply Bool.eq_false_of_not_eq_true
          intro hdue
          rw [← hsplit, hdrop, List.pairwise_append] at hfirst
          have hback := (List.pairwise_cons.mp hfirst.2.1).1 p hp hdue
          rw [ha] at hback
          cases hback
    · exact h.taken p hp

end Resending

/-- The resend list has grown from `l`, whose packets have the same times, by packets that are
not due. -/
structure Grown (u : UpdateInput) (times : PacketPtr → ℕ) (l new : List PacketPtr)
    (s : ReliabilityLayer) : Prop where
  inv : Inv s.resendView (l ++ new)
  old : ∀ p ∈ l, s.nextActionTimes p = times p
  fresh : ∀ p ∈ new, isDue u.time (s.nextActionTimes p) = false

namespace Grown

variable {times : PacketPtr → ℕ} {new : List PacketPtr}

theorem same (h : Grown u times l new s) (hview : t.resendView = s.resendView)
    (htimes : t.nextActionTimes = s.nextActionTimes) : Grown u times l new t := by
  constructor
  · rw [hview]
    exact h.inv
  · rw [htimes]
    exact h.old
  · rw [htimes]
    exact h.fresh

theorem sendStep (h : Grown u times l new s) (hstep : SendStep u s t) :
    ∃ new', Grown u times l new' t := by
  cases hstep with
  | pushDatagram =>
    exact ⟨new, h.same (resendView_pushDatagram s) (nextActionTimes_pushDatagram s)⟩
  | drop p hpeek =>
    refine ⟨new, popOutgoing_inv h.inv hpeek, ?_, ?_⟩
    · rw [nextActionTimes_popOutgoing]
      exact h.old
    · rw [nextActionTimes_popOutgoing]
      exact h.fresh
  | setHeaderLength p hpeek =>
    have htimes : (s.setHeaderLength p).nextActionTimes = s.nextActionTimes :=
      nextActionTimes_modifyPacket s p rfl
    refine ⟨new, setHeaderLength_inv h.inv hpeek, ?_, ?_⟩
    · rw [htimes]
      exact h.old
    · rw [htimes]
      exact h.fresh
  | send p hpeek hheader hfits hroom =>
    have hinv := sendPacket_inv (u := u) h.inv hpeek hheader hroom
    have htimes := nextActionTimes_sendPacket (u := u) s p
    have hfresh : ∀ q ∈ l ++ new, q ≠ p := fun q hq he =>
      h.inv.queue_not_sent p (peek_mem hpeek) (h.inv.mem_sent (he ▸ hq))
    by_cases hreliable : (s.packets p).reliability.isReliable = true
    · rw [if_pos hreliable] at hinv htimes
      refine ⟨new ++ [p], ?_, ?_, ?_⟩
      · rw [← List.append_assoc]
        exact hinv
      · intro q hq
        rw [htimes, Function.update_of_ne (hfresh q (List.mem_append_left _ hq))]
        exact h.old q hq
      · intro q hq
        rw [htimes]
        rcases List.mem_append.mp hq with hq | hq
        · rw [Function.update_of_ne (hfresh q (List.mem_append_right _ hq))]
          exact h.fresh q hq
        · rw [List.mem_singleton.mp hq, Function.update_self]
          exact isDue_sent u
    · rw [if_neg hreliable] at hinv htimes
      refine ⟨new, hinv, ?_, ?_⟩
      · rw [htimes]
        exact h.old
      · rw [htimes]
        exact h.fresh

theorem sendSteps (h : Grown u times l new s) (hsteps : SendSteps u s t) :
    ∃ new', Grown u times l new' t := by
  induction hsteps with
  | refl => exact ⟨new, h⟩
  | tail _ hstep ih =>
    obtain ⟨new', h'⟩ := ih
    exact h'.sendStep hstep

end Grown

theorem nextActionTimes_foldl {β : Type*} {f : ReliabilityLayer → β → ReliabilityLayer}
    (hf : ∀ s b, (f s b).nextActionTimes = s.nextActionTimes) (bs : List β)
    (s : ReliabilityLayer) : (bs.foldl f s).nextActionTimes = s.nextActionTimes :=
  foldl_induction (P := fun t => t.nextActionTimes = s.nextActionTimes)
    (fun t b ht => (hf t b).trans ht) bs rfl

theorem nextActionTimes_removeFromUnreliableLinkedList (s : ReliabilityLayer) (p : PacketPtr) :
    (s.removeFromUnreliableLinkedList p).nextActionTimes = s.nextActionTimes := by
  unfold removeFromUnreliableLinkedList
  split <;> rfl

theorem nextActionTimes_freeInternalPacketData (s : ReliabilityLayer) (p : PacketPtr) :
    (s.freeInternalPacketData p).nextActionTimes = s.nextActionTimes :=
  nextActionTimes_modifyPacket s p rfl

theorem nextActionTimes_startPacking (s : ReliabilityLayer) :
    (s.startPacking u).nextActionTimes = s.nextActionTimes := by
  have hclear : ∀ t : ReliabilityLayer,
      ((t.clearExpiredBps u).reportLosses u).resetPacketsAndDatagrams.nextActionTimes =
        t.nextActionTimes := by
    intro t
    unfold clearExpiredBps
    split <;> rfl
  rw [startPacking, hclear]
  unfold beginUpdate cullUnreliable
  split
  · refine (nextActionTimes_foldl ?_ _ _).trans rfl
    intro t p
    rw [cullPacket, nextActionTimes_removeFromUnreliableLinkedList,
      nextActionTimes_freeInternalPacketData]
  · split <;> rfl

theorem nextActionTimes_finishSending (s : ReliabilityLayer) :
    (s.emitDatagrams u).clearPacketsAndDatagrams.nextActionTimes = s.nextActionTimes := by
  have hemit : (s.emitDatagrams u).nextActionTimes = s.nextActionTimes := by
    apply nextActionTimes_foldl
    intro t i
    unfold emitDatagram addToDatagramHistory
    dsimp only
    split <;> rfl
  rw [← hemit]
  apply nextActionTimes_foldl
  intro t entry
  unfold clearPacket
  split
  · rw [nextActionTimes_freeInternalPacketData, nextActionTimes_removeFromUnreliableLinkedList]
  · rfl

/-- The state after the resend loop of an update. -/
def afterResendLoop (s : ReliabilityLayer) (u : UpdateInput) : ReliabilityLayer :=
  let s := s.startPacking u
  resendLoop u (toInt32 s.unacknowledgedBytes) (s.messagesInResendBuffer + 1)
    s.clearAllDatagramSizes

/-- The update gets past its early returns, and its resend loop does not stop for want of
bandwidth. -/
structure ResendsWithBandwidth (s : ReliabilityLayer) (u : UpdateInput) : Prop where
  not_early : (!u.forceSendACKs && decide (u.time ≤ s.lastUpdateTime)) = false
  alive : (s.beginUpdate u).acksHaveTimedOut u = false
  has_data : (s.beginUpdate u).hasDataToSendOrResend = true
  bandwidth_left : (bitsToBytes (s.afterResendLoop u).datagrams.allDatagramSizesSoFar : ℤ) <
    toInt32 (s.startPacking u).unacknowledgedBytes

/-- No packet on the resend list is due. -/
def NoneDue (s : ReliabilityLayer) (time : ℕ) : Prop :=
  ∀ l, s.resendLinkedList.Represents l → ∀ p ∈ l, isDue time (s.packets p).nextActionTime = false

/-- The packets on the resend list that are due come before those that are not. -/
def DueFirst (s : ReliabilityLayer) (time : ℕ) : Prop :=
  ∀ l, s.resendLinkedList.Represents l → l.Pairwise fun p q =>
    isDue time (s.packets q).nextActionTime = true → isDue time (s.packets p).nextActionTime = true

theorem updateInternal_eq (h : s.ResendsWithBandwidth u) :
    s.updateInternal u =
      (((s.startPacking u).packDatagrams u).emitDatagrams u).clearPacketsAndDatagrams := by
  unfold updateInternal
  rw [if_neg (by rw [h.not_early]; exact Bool.false_ne_true)]
  unfold finishUpdate
  rw [if_neg (by rw [h.alive]; exact Bool.false_ne_true), if_pos h.has_data]
  rfl

theorem packDatagrams_eq (h : s.ResendsWithBandwidth u) :
    (s.startPacking u).packDatagrams u = s.afterResendLoop u ∨
      ∃ fuel, (s.startPacking u).packDatagrams u =
        sendLoop u fuel (s.afterResendLoop u).clearAllDatagramSizes := by
  have hpos : toInt32 (s.startPacking u).unacknowledgedBytes > 0 ∨ u.transmissionBandwidth > 0 :=
    .inl (Int.lt_of_le_of_lt (Int.natCast_nonneg _) h.bandwidth_left)
  unfold packDatagrams
  dsimp only
  rw [if_pos hpos]
  split
  · exact .inr ⟨_, rfl⟩
  · exact .inl rfl

theorem updateInternal_grown (h : s.ResendsWithBandwidth u)
    (hinv : Inv (s.afterResendLoop u).resendView l) :
    ∃ new, Grown u (s.afterResendLoop u).nextActionTimes l new (s.updateInternal u) := by
  have hstart : Grown u (s.afterResendLoop u).nextActionTimes l [] (s.afterResendLoop u) := by
    refine ⟨?_, fun p _ => rfl, nofun⟩
    rw [List.append_nil]
    exact hinv
  have hpacked : ∃ new, Grown u (s.afterResendLoop u).nextActionTimes l new
      ((s.startPacking u).packDatagrams u) := by
    rcases packDatagrams_eq h with heq | ⟨fuel, heq⟩
    · rw [heq]
      exact ⟨[], hstart⟩
    · rw [heq]
      have hclear : Grown u (s.afterResendLoop u).nextActionTimes l []
          (s.afterResendLoop u).clearAllDatagramSizes :=
        hstart.same (resendView_clearAllDatagramSizes _) (nextActionTimes_clearAllDatagramSizes _)
      exact hclear.sendSteps (sendLoop_steps fuel _)
  obtain ⟨new, hpacked⟩ := hpacked
  rw [updateInternal_eq h]
  refine ⟨new, hpacked.same ?_ (nextActionTimes_finishSending _)⟩
  rw [resendView_clearPacketsAndDatagrams, resendView_emitDatagrams]

theorem resendLoop_stopped (hinv : Inv t.resendView l)
    (hempty : t.datagrams.datagramSizeSoFar = 0)
    (hleft : (bitsToBytes (resendLoop u (toInt32 t.unacknowledgedBytes)
      (t.messagesInResendBuffer + 1) t.clearAllDatagramSizes).datagrams.allDatagramSizesSoFar : ℤ) <
        toInt32 t.unacknowledgedBytes) :
    ∃ k, Resending u t.nextActionTimes l k (resendLoop u (toInt32 t.unacknowledgedBytes)
        (t.messagesInResendBuffer + 1) t.clearAllDatagramSizes) ∧
      Stopped u (resendLoop u (toInt32 t.unacknowledgedBytes) (t.messagesInResendBuffer + 1)
        t.clearAllDatagramSizes) := by
  have hstart : Resending u t.nextActionTimes l 0 t.clearAllDatagramSizes := by
    refine ⟨?_, Nat.zero_le _, nofun, nofun, fun p _ => rfl⟩
    rw [List.drop_zero, List.take_zero, List.append_nil]
    exact hinv
  have hfuel : l.length < 0 + (t.messagesInResendBuffer + 1) := by
    have hcount : t.messagesInResendBuffer = l.length := hinv.messagesInResendBuffer_eq
    omega
  exact hstart.resendLoop hempty hfuel hleft

theorem datagramSizeSoFar_startPacking (s : ReliabilityLayer) :
    (s.startPacking u).datagrams.datagramSizeSoFar = 0 := rfl

theorem updateInternal_none_due (hinv : Inv s.resendView l) (h : s.ResendsWithBandwidth u) :
    (s.updateInternal u).NoneDue u.time ↔ s.DueFirst u.time := by
  obtain ⟨k, hresending, hstopped⟩ : ∃ k,
      Resending u (s.startPacking u).nextActionTimes l k (s.afterResendLoop u) ∧
        Stopped u (s.afterResendLoop u) :=
    resendLoop_stopped (startPacking_inv hinv) (datagramSizeSoFar_startPacking s) h.bandwidth_left
  rw [nextActionTimes_startPacking] at hresending
  have hiff := hresending.none_due_iff hstopped
  obtain ⟨new, hgrown⟩ := updateInternal_grown h hresending.inv
  constructor
  · intro hnone l' hl'
    rw [hl'.unique hinv.represents]
    refine hiff.mp fun p hp => ?_
    rw [← hgrown.old p hp]
    exact hnone _ hgrown.inv.represents p (List.mem_append_left _ hp)
  · intro hfirst l' hl' p hp
    rw [hl'.unique hgrown.inv.represents] at hp
    rcases List.mem_append.mp hp with hp | hp
    · rw [show ((s.updateInternal u).packets p).nextActionTime = _ from hgrown.old p hp]
      exact hiff.mpr (hfirst l hinv.represents) p hp
    · exact hgrown.fresh p hp

/-- In every reachable state, an update with bandwidth left sends every packet again that is due
exactly if none of them stands behind a packet that is not due. -/
theorem due_messages_resent (mtu : Mtu) (lastUpdateTime timeLastDatagramArrived timeoutTime : ℕ)
    (inputs : List SenderInput) {s : ReliabilityLayer}
    (hs : s = inputs.foldl step (initial mtu lastUpdateTime timeLastDatagramArrived timeoutTime))
    {u : UpdateInput} (h : s.ResendsWithBandwidth u) :
    (s.updateInternal u).NoneDue u.time ↔ s.DueFirst u.time := by
  obtain ⟨l, hinv⟩ := run_inv mtu lastUpdateTime timeLastDatagramArrived timeoutTime inputs
  rw [← hs] at hinv
  exact updateInternal_none_due hinv h

def sendAt (currentTime : ℕ) : SenderInput :=
  .send ⟨[1], 8, .high, .reliable, 0, currentTime, 0, by decide⟩

/-- An update one second before what it sends is due again. -/
def updateAt (time : ℕ) (h : time < 2 ^ 64) : UpdateInput :=
  ⟨time, 0, false, 1000, 1000000, h, by decide, by decide⟩

/-- Two messages are sent in two datagrams, half a second apart. -/
def twoSent : List SenderInput :=
  [sendAt 0, .update (updateAt 1000 (by decide)), sendAt 0, .update (updateAt 500000 (by decide))]

/-- The first message is sent again when it is due before the second one. -/
theorem first_resent :
    (twoSent.foldl step (initial ⟨100, by decide, by decide⟩ 0 0 10000)).ResendsWithBandwidth
        (updateAt 1100000 (by decide)) ∧
      (((twoSent.foldl step (initial ⟨100, by decide, by decide⟩ 0 0 10000)).updateInternal
          (updateAt 1100000 (by decide))).NoneDue 1100000 ↔
        (twoSent.foldl step (initial ⟨100, by decide, by decide⟩ 0 0 10000)).DueFirst 1100000) := by
  have h : (twoSent.foldl step
      (initial ⟨100, by decide, by decide⟩ 0 0 10000)).ResendsWithBandwidth
        (updateAt 1100000 (by decide)) :=
    ⟨by decide +kernel, by decide +kernel, by decide +kernel, by decide +kernel⟩
  exact ⟨h, due_messages_resent _ _ _ _ _ rfl h⟩

/-- The second of the datagrams is reported missing. -/
def nakInputs : List SenderInput := twoSent ++ [.nak (RangeList.empty.insert 1) 600000 600]

def nakState : ReliabilityLayer :=
  nakInputs.foldl step (initial ⟨100, by decide, by decide⟩ 0 0 10000)

theorem nakState_represents : nakState.resendLinkedList.Represents [0, 1] := by
  refine ⟨by decide +kernel, by decide, ?_⟩
  exact List.isChain_cons_cons.mpr ⟨⟨by decide +kernel, by decide +kernel⟩,
    List.isChain_cons_cons.mpr ⟨⟨by decide +kernel, by decide +kernel⟩, List.isChain_singleton _⟩⟩

/-- The message of the missing datagram is to be sent again at once, and is not: it stands
behind one that is not due. -/
theorem nak_not_resent :
    ¬ ∀ (mtu : Mtu) (lastUpdateTime timeLastDatagramArrived timeoutTime : ℕ)
      (inputs : List SenderInput) (s : ReliabilityLayer) (u : UpdateInput),
      s = inputs.foldl step (initial mtu lastUpdateTime timeLastDatagramArrived timeoutTime) →
        s.ResendsWithBandwidth u → (s.updateInternal u).NoneDue u.time := by
  intro hclaim
  have h : nakState.ResendsWithBandwidth (updateAt 700000 (by decide)) :=
    ⟨by decide +kernel, by decide +kernel, by decide +kernel, by decide +kernel⟩
  obtain ⟨l, hinv⟩ := run_inv ⟨100, by decide, by decide⟩ 0 0 10000 nakInputs
  have hfirst := (updateInternal_none_due hinv h).mp (hclaim _ _ _ _ nakInputs nakState _ rfl h)
    [0, 1] nakState_represents
  have hback := (List.pairwise_cons.mp hfirst).1 1 List.mem_cons_self (by decide +kernel)
  exact absurd hback (by decide +kernel)

end ReliabilityLayer

end SLikeNet
