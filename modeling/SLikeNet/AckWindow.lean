import SLikeNet.LoneMessage

/-! Which messages an acknowledgement takes out of the resend buffer: those of the datagrams in
the history whose number comes before every covered number that is not in the history. -/

namespace SLikeNet

theorem mem_takeWhile_of_sorted {α : Type*} {f : α → ℕ} {q : α → Bool} {x : α} {xs : List α}
    (h : xs.Pairwise fun a b => f a < f b) :
    x ∈ xs.takeWhile q ↔ x ∈ xs ∧ ∀ y ∈ xs, f y ≤ f x → q y = true := by
  induction xs with
  | nil => simp
  | cons a xs ih =>
    obtain ⟨ha, hxs⟩ := List.pairwise_cons.mp h
    by_cases hq : q a = true
    · rw [List.takeWhile_cons_of_pos hq, List.mem_cons, List.mem_cons, ih hxs]
      constructor
      · rintro (rfl | ⟨hx, hall⟩)
        · refine ⟨.inl rfl, fun y hy hle => ?_⟩
          rcases List.mem_cons.mp hy with rfl | hy
          · exact hq
          · exact absurd hle (Nat.not_le_of_lt (ha y hy))
        · refine ⟨.inr hx, fun y hy hle => ?_⟩
          rcases List.mem_cons.mp hy with rfl | hy
          · exact hq
          · exact hall y hy hle
      · rintro ⟨rfl | hx, hall⟩
        · exact .inl rfl
        · exact .inr ⟨hx, fun y hy => hall y (List.mem_cons_of_mem a hy)⟩
    · rw [List.takeWhile_cons_of_neg hq]
      refine iff_of_false List.not_mem_nil fun ⟨hx, hall⟩ => hq (hall a List.mem_cons_self ?_)
      rcases List.mem_cons.mp hx with rfl | hx
      · exact Nat.le_refl _
      · exact Nat.le_of_lt (ha x hx)

theorem RangeNode.numbers_sorted (n : RangeNode) :
    n.numbers.Pairwise fun a b => a.val < b.val := by
  have hmax := n.maxIndex.isLt
  unfold RangeNode.numbers
  rw [List.pairwise_map]
  refine List.pairwise_lt_range.imp_of_mem fun {a b} ha hb hab => ?_
  rw [List.mem_range] at ha hb
  rw [Uint24.val_ofNat_of_lt (by omega), Uint24.val_ofNat_of_lt (by omega)]
  omega

namespace RangeList

theorem numbers_sorted (r : RangeList) : r.numbers.Pairwise fun a b => a.val < b.val := by
  unfold numbers
  rw [List.pairwise_flatMap]
  refine ⟨fun n _ => n.numbers_sorted, r.ascending.ascending.imp fun {a b} hab x hx y hy => ?_⟩
  have hxa := (RangeNode.mem_numbers.mp hx).2
  have hyb := (RangeNode.mem_numbers.mp hy).1
  rw [Uint24.le_iff] at hxa hyb
  rw [Uint24.lt_iff] at hab
  omega

end RangeList

namespace ReliabilityLayer

open ResendView

variable {s t : ReliabilityLayer} {l : List PacketPtr} {p : PacketPtr} {d : Uint24}
  {incomingAcks : RangeList}

/-- The packets of the datagram in the history with this number. -/
def carried (s : ReliabilityLayer) (datagramNumber : Uint24) : List PacketPtr :=
  s.history.wire.getD (s.historyStart + s.offsetIntoList datagramNumber) []

def InResendBuffer (s : ReliabilityLayer) (p : PacketPtr) : Prop := ∃ i, s.resendBuffer i = some p

/-- The ranges cover a number, not above this one, that has no node in the history. -/
def Blocked (s : ReliabilityLayer) (incomingAcks : RangeList) (datagramNumber : Uint24) : Prop :=
  ∃ x, incomingAcks.Covers x ∧ x ≤ datagramNumber ∧ s.inWindow x = false

theorem carried_ofNat (h : HistoryInv s) {k : ℕ} (hstart : s.historyStart ≤ k)
    {datagram : List PacketPtr} (hk : s.history.wire[k]? = some datagram) :
    s.inWindow (.ofNat k) = true ∧ s.carried (.ofNat k) = datagram := by
  obtain ⟨hlt, -⟩ := List.getElem?_eq_some_iff.mp hk
  have hle := h.length_le
  have hwire := h.length_le_wire
  have hspan : s.historyStart + s.datagramHistory.length = s.history.wire.length := by
    rw [historyStart]
    omega
  have hoffset : s.offsetIntoList (.ofNat k) = k - s.historyStart := by
    rw [offsetIntoList, h.popCount_eq]
    exact Uint24.val_ofNat_sub_ofNat hstart (by omega)
  constructor
  · rw [inWindow, hoffset]
    exact decide_eq_true (by omega)
  · rw [carried, hoffset, Nat.add_sub_cancel' hstart, List.getD_eq_getElem?_getD, hk]
    rfl

theorem inResendBuffer_iff (h : Inv s.resendView l) : s.InResendBuffer p ↔ s.Outstanding p :=
  ((bookkeepingOf_inv h).mem_iff_slot p).symm.trans ((bookkeepingOf_inv h).mem_iff_outstanding p)

theorem mem_processed : d ∈ s.processed incomingAcks.numbers ↔
    incomingAcks.Covers d ∧ ¬ s.Blocked incomingAcks d := by
  unfold processed
  rw [mem_takeWhile_of_sorted incomingAcks.numbers_sorted, RangeList.mem_numbers]
  apply and_congr_right
  intro _
  unfold Blocked
  simp only [RangeList.mem_numbers, not_exists, not_and, Bool.not_eq_false, Uint24.le_iff]

theorem handleAck_eq (s : ReliabilityLayer)
    (hmax : ∀ r ∈ incomingAcks.ranges, r.maxIndex ≠ .ofNat 0xFFFFFFFF) :
    (s.handleAck incomingAcks).2 = (s.processed incomingAcks.numbers).foldl ackDatagram
      ((s.cover incomingAcks).reportAcked incomingAcks) := by
  have hsame : SameWindow s ((s.cover incomingAcks).reportAcked incomingAcks) := ⟨rfl, rfl⟩
  unfold handleAck
  dsimp only
  split
  · rename_i hnil
    have hnil : s.datagramHistory = [] := hnil
    have hnone : s.processed incomingAcks.numbers = [] := by
      refine List.eq_nil_iff_forall_not_mem.mpr fun d hd => ?_
      have hin : s.inWindow d = true := List.mem_takeWhile_imp hd
      rw [inWindow, hnil] at hin
      exact absurd (of_decide_eq_true hin) (Nat.not_lt_zero _)
    rw [hnone]
    rfl
  · have hloop := rangesLoop_eq (fun s d => (acknowledges_ackDatagram s d).window) hmax
      ((s.cover incomingAcks).reportAcked incomingAcks)
    rw [hloop, hsame.processed_eq]
    rfl

theorem outstanding_handleAck (s : ReliabilityLayer)
    (hmax : ∀ r ∈ incomingAcks.ranges, r.maxIndex ≠ .ofNat 0xFFFFFFFF) :
    (s.handleAck incomingAcks).2.Outstanding p ↔ s.Outstanding p ∧
      ∀ d, incomingAcks.Covers d → ¬ s.Blocked incomingAcks d →
        s.messageNumbers p ∉ s.getMessageNumberNodeByDatagramIndex d := by
  have hfold := acknowledges_foldl (s.processed incomingAcks.numbers)
    ((s.cover incomingAcks).reportAcked incomingAcks)
  rw [handleAck_eq s hmax, hfold.outstanding_iff]
  simp only [mem_processed, and_imp]
  exact Iff.rfl

theorem mem_node_of_carried (h : HistoryInv s) (hin : s.inWindow d = true) (hp : p ∈ s.carried d)
    (hout : s.Outstanding p) : s.messageNumbers p ∈ s.getMessageNumberNodeByDatagramIndex d := by
  obtain ⟨node, hnode⟩ : ∃ node, s.datagramHistory[s.offsetIntoList d]? = some node :=
    ⟨_, List.getElem?_eq_getElem (of_decide_eq_true hin)⟩
  rw [getMessageNumberNodeByDatagramIndex_eq h.length_le hnode]
  unfold carried at hp
  rw [List.getD_eq_getElem?_getD] at hp
  cases hd : s.history.wire[s.historyStart + s.offsetIntoList d]? with
  | none =>
    rw [hd] at hp
    cases hp
  | some datagram =>
    rw [hd] at hp
    exact h.recorded _ node hnode datagram hd p hp hout

/-- Every message of a datagram in the window that the acknowledgement covers is gone after it. -/
def AcknowledgesWindow (s t : ReliabilityLayer) (incomingAcks : RangeList) : Prop :=
  ∀ d, incomingAcks.Covers d → s.inWindow d = true → ∀ p ∈ s.carried d, ¬ t.InResendBuffer p

/-- What the acknowledgement leaves out is recorded for a datagram that it reaches. -/
def ReachesBlocked (s : ReliabilityLayer) (incomingAcks : RangeList) : Prop :=
  ∀ d, incomingAcks.Covers d → s.inWindow d = true → s.Blocked incomingAcks d →
    ∀ p ∈ s.carried d, s.InResendBuffer p → ∃ d', incomingAcks.Covers d' ∧
      ¬ s.Blocked incomingAcks d' ∧
        s.messageNumbers p ∈ s.getMessageNumberNodeByDatagramIndex d'

theorem handleAck_window (hinv : Inv s.resendView l) (h : HistoryInv s)
    (hmax : ∀ r ∈ incomingAcks.ranges, r.maxIndex ≠ .ofNat 0xFFFFFFFF) :
    AcknowledgesWindow s (s.handleAck incomingAcks).2 incomingAcks ↔
      s.ReachesBlocked incomingAcks := by
  obtain ⟨l', hinv'⟩ := handleAck_inv incomingAcks ⟨l, hinv⟩
  unfold AcknowledgesWindow ReachesBlocked
  simp only [inResendBuffer_iff hinv, inResendBuffer_iff hinv', outstanding_handleAck s hmax]
  constructor
  · intro hclaim d hcovers hin _ p hp hout
    by_contra hnone
    exact hclaim d hcovers hin p hp
      ⟨hout, fun d' hd' hfree hmem => hnone ⟨d', hd', hfree, hmem⟩⟩
  · intro hreaches d hcovers hin p hp hleft
    by_cases hblocked : s.Blocked incomingAcks d
    · obtain ⟨d', hd', hfree, hmem⟩ := hreaches d hcovers hin hblocked p hp hleft.1
      exact hleft.2 d' hd' hfree hmem
    · exact hleft.2 d hcovers hblocked (mem_node_of_carried h hin hp hleft.1)

/-- In every reachable state, an acknowledgement removes every message of the datagrams that it
covers in the history exactly if it reaches what its numbers outside the history block. -/
theorem window_acknowledged (mtu : Mtu) (lastUpdateTime timeLastDatagramArrived timeoutTime : ℕ)
    (inputs : List SenderInput) {s : ReliabilityLayer}
    (hs : s = inputs.foldl step (initial mtu lastUpdateTime timeLastDatagramArrived timeoutTime))
    {incomingAcks : RangeList}
    (hmax : ∀ r ∈ incomingAcks.ranges, r.maxIndex ≠ .ofNat 0xFFFFFFFF) (timeMS : ℕ) :
    AcknowledgesWindow s (s.step (.ack incomingAcks timeMS)) incomingAcks ↔
      s.ReachesBlocked incomingAcks := by
  obtain ⟨l, hinv⟩ := run_inv mtu lastUpdateTime timeLastDatagramArrived timeoutTime inputs
  have hhistory := run_historyInv mtu lastUpdateTime timeLastDatagramArrived timeoutTime inputs
  rw [← hs] at hinv hhistory
  have harrived : HistoryInv (s.datagramArrived timeMS) := hhistory.of_eq rfl rfl
  have hview : Inv (s.datagramArrived timeMS).resendView l := hinv
  exact handleAck_window hview harrived hmax

theorem eight_lt : 8 < 2 ^ 32 := by decide

def oneByte (reliability : PacketReliability) (n : ℕ) : SendInput :=
  ⟨[1], 8, .high, reliability, 0, 1000 * n, 0, eight_lt⟩

/-- One millisecond after the last update. -/
def nextUpdate (n : ℕ) : UpdateInput :=
  ⟨1000 * (n + 1) % 2 ^ 64, 0, false, 1000, 500000, Nat.mod_lt _ (by decide), by decide, by decide⟩

def byteRound (reliability : PacketReliability) (n : ℕ) : List SenderInput :=
  [.send (oneByte reliability n), .update (nextUpdate n)]

/-- Rounds with unreliable messages. -/
def unreliableRounds : ℕ → List SenderInput
  | 0 => []
  | n + 1 => unreliableRounds n ++ byteRound .unreliable n

/-- The layer after `n` rounds. -/
structure AfterRounds (n : ℕ) (s : ReliabilityLayer) : Prop where
  quiet : Quiet s
  wire_length : s.history.wire.length = n
  history_length : s.datagramHistory.length = n
  lastUpdateTime : s.lastUpdateTime = 1000 * n

theorem AfterRounds.byteRound {n : ℕ} (h : AfterRounds n s) (hn : n ≤ 513)
    (reliability : PacketReliability) :
    SentAlone (s.send (oneByte reliability n)).2 s.allocated
        ((byteRound reliability n).foldl step s) ∧
      ((s.send (oneByte reliability n)).2.packets s.allocated).reliability = reliability ∧
      ((byteRound reliability n).foldl step s).clock = (0, 1000 * (n + 1)) := by
  have htime : (nextUpdate n).time = 1000 * (n + 1) := Nat.mod_eq_of_lt (by omega)
  have hu : Unlimited (nextUpdate n) := ⟨show (0 : ℤ) < 1000 by decide, rfl⟩
  have hround := h.quiet.round (i := oneByte reliability n) rfl hu
    (by rw [htime, h.lastUpdateTime]; omega) (by rw [h.history_length]; exact hn)
  rw [htime] at hround
  simp only [ReliabilityLayer.byteRound, List.foldl_cons, List.foldl_nil, step]
  exact hround

theorem afterRounds_unreliable (mtu : Mtu) (timeLastDatagramArrived timeoutTime : ℕ) {n : ℕ}
    (hn : n ≤ 513) : AfterRounds n ((unreliableRounds n).foldl step
      (initial mtu 0 timeLastDatagramArrived timeoutTime)) := by
  induction n with
  | zero => exact ⟨⟨initial_inv _ _ _ _, rfl, rfl⟩, rfl, rfl, rfl⟩
  | succ n ih =>
    have hlast := ih (by omega)
    rw [unreliableRounds, List.foldl_append]
    generalize (unreliableRounds n).foldl step
      (initial mtu 0 timeLastDatagramArrived timeoutTime) = s at hlast ⊢
    obtain ⟨hsent, hreliability, hclock⟩ := hlast.byteRound (by omega) .unreliable
    obtain ⟨htimeout, htime⟩ := Prod.mk.inj hclock
    obtain ⟨hhistory, -, -, hwire⟩ := DatagramWindow.mk.inj
      (datagramWindow_send s (oneByte .unreliable n))
    refine ⟨⟨?_, hsent.queue, htimeout⟩, ?_, ?_, htime⟩
    · have hinv := hsent.inv
      rw [hreliability] at hinv
      exact hinv
    · rw [hsent.wire_eq, hwire, List.length_append, hlast.wire_length]
      rfl
    · rw [hsent.length_eq, hhistory, hlast.history_length]
      omega

/-- The acknowledgement of the first datagram, with nothing else in the way. -/
theorem first_window_acknowledged :
    (∀ r ∈ (RangeList.empty.insert 0).ranges, r.maxIndex ≠ .ofNat 0xFFFFFFFF) ∧
      (AcknowledgesWindow
          ((byteRound .reliable 0).foldl step (initial ⟨100, by decide, by decide⟩ 0 0 10000))
          (((byteRound .reliable 0).foldl step
            (initial ⟨100, by decide, by decide⟩ 0 0 10000)).step (.ack (RangeList.empty.insert 0) 1))
          (RangeList.empty.insert 0) ↔
        ((byteRound .reliable 0).foldl step
          (initial ⟨100, by decide, by decide⟩ 0 0 10000)).ReachesBlocked
            (RangeList.empty.insert 0)) :=
  ⟨by decide, window_acknowledged _ _ _ _ _ rfl (by decide) 1⟩

/-- 513 datagrams have left before the one with a reliable message. -/
def lateInputs : List SenderInput := unreliableRounds 513 ++ byteRound .reliable 513

/-- The acknowledgement of the first datagram and of the last one. -/
def firstAndLast : RangeList := ⟨[⟨0, 0⟩, ⟨.ofNat 513, .ofNat 513⟩], by decide⟩

/-- The reliable message is in the last datagram and outstanding, and the first datagram is no
longer in the history. -/
theorem lateInputs_spec (mtu : Mtu) (timeLastDatagramArrived timeoutTime : ℕ)
    (hs : s = lateInputs.foldl step (initial mtu 0 timeLastDatagramArrived timeoutTime)) :
    ∃ p, s.history.wire[513]? = some [p] ∧ s.historyStart = 1 ∧ Inv s.resendView [p] := by
  have hrounds := afterRounds_unreliable mtu timeLastDatagramArrived timeoutTime (Nat.le_refl 513)
  rw [lateInputs, List.foldl_append] at hs
  rw [hs]
  generalize (unreliableRounds 513).foldl step
    (initial mtu 0 timeLastDatagramArrived timeoutTime) = s at hrounds ⊢
  obtain ⟨hsent, hreliability, -⟩ := hrounds.byteRound (Nat.le_refl 513) .reliable
  obtain ⟨hhistory, -, -, hwire⟩ := DatagramWindow.mk.inj
    (datagramWindow_send s (oneByte .reliable 513))
  generalize (byteRound .reliable 513).foldl step s = t at hsent ⊢
  have hlength : s.history.wire.length = 513 := hrounds.wire_length
  have hinv := hsent.inv
  rw [hreliability] at hinv
  refine ⟨s.allocated, ?_, ?_, hinv⟩
  · rw [hsent.wire_eq, hwire, List.getElem?_append_right (Nat.le_of_eq hlength), hlength]
    rfl
  · rw [historyStart, hsent.wire_eq, hsent.length_eq, hwire, hhistory, List.length_append, hlength,
      hrounds.history_length, List.length_singleton]
    omega

theorem firstAndLast_hides (hhistory : HistoryInv s) (hinv : Inv s.resendView [p])
    (hstart : s.historyStart = 1) (hwire : s.history.wire[513]? = some [p]) (timeMS : ℕ) :
    ¬ AcknowledgesWindow s (s.step (.ack firstAndLast timeMS)) firstAndLast := by
  intro hacknowledges
  have hmax : ∀ r ∈ firstAndLast.ranges, r.maxIndex ≠ .ofNat 0xFFFFFFFF := by decide
  have hpop := hhistory.popCount_eq
  rw [hstart] at hpop
  obtain ⟨hin, hcarried⟩ := carried_ofNat hhistory (by omega) hwire
  have hold : s.inWindow 0 = false := by
    have hle := hhistory.length_le
    have hoffset : s.offsetIntoList 0 = 2 ^ 24 - 1 := by
      rw [offsetIntoList, hpop]
      rfl
    rw [inWindow, hoffset]
    exact decide_eq_false (by omega)
  have hblocked : ∀ d, s.Blocked firstAndLast d :=
    fun d => ⟨0, ⟨⟨0, 0⟩, List.mem_cons_self, by decide⟩, Nat.zero_le _, hold⟩
  have hview : Inv (s.datagramArrived timeMS).resendView [p] := hinv
  obtain ⟨l, hinv'⟩ := handleAck_inv firstAndLast ⟨[p], hview⟩
  have hcovers : firstAndLast.Covers (.ofNat 513) :=
    ⟨⟨.ofNat 513, .ofNat 513⟩, by decide, by decide⟩
  apply hacknowledges (.ofNat 513) hcovers hin p (by rw [hcarried]; exact List.mem_singleton_self p)
  refine (inResendBuffer_iff hinv').mpr ((outstanding_handleAck _ hmax).mpr ⟨?_, ?_⟩)
  · exact (hinv.mem_iff p).mp (List.mem_singleton_self p)
  · exact fun d _ hfree => absurd (hblocked d) hfree

theorem lateInputs_not_acknowledged (mtu : Mtu) (timeLastDatagramArrived timeoutTime : ℕ)
    (hs : s = lateInputs.foldl step (initial mtu 0 timeLastDatagramArrived timeoutTime))
    (timeMS : ℕ) : ¬ AcknowledgesWindow s (s.step (.ack firstAndLast timeMS)) firstAndLast := by
  obtain ⟨p, hwire, hstart, hinv⟩ := lateInputs_spec mtu timeLastDatagramArrived timeoutTime hs
  have hhistory := run_historyInv mtu 0 timeLastDatagramArrived timeoutTime lateInputs
  rw [← hs] at hhistory
  exact firstAndLast_hides hhistory hinv hstart hwire timeMS

theorem stale_number_hides_window :
    ¬ ∀ (mtu : Mtu) (lastUpdateTime timeLastDatagramArrived timeoutTime : ℕ)
      (inputs : List SenderInput) (s : ReliabilityLayer) (incomingAcks : RangeList) (timeMS : ℕ),
      s = inputs.foldl step (initial mtu lastUpdateTime timeLastDatagramArrived timeoutTime) →
        (∀ r ∈ incomingAcks.ranges, r.maxIndex ≠ .ofNat 0xFFFFFFFF) →
          AcknowledgesWindow s (s.step (.ack incomingAcks timeMS)) incomingAcks := by
  intro hclaim
  have hmax : ∀ r ∈ firstAndLast.ranges, r.maxIndex ≠ .ofNat 0xFFFFFFFF := by decide
  have hacknowledges :=
    hclaim ⟨100, by decide, by decide⟩ 0 0 10000 lateInputs _ firstAndLast 0 rfl hmax
  exact lateInputs_not_acknowledged _ _ _ rfl 0 hacknowledges

end ReliabilityLayer

end SLikeNet
