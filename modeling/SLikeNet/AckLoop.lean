import SLikeNet.Frame
import Mathlib.Data.List.TakeWhile

/-! The loops over the ranges of an acknowledgement, and which reliable messages they take out
of the resend buffer. -/

namespace SLikeNet

namespace ReliabilityLayer

open ResendView

variable {s t : ReliabilityLayer} {p : PacketPtr}

/-- The datagrams of a layer: those that left, and what the history keeps of the last ones. -/
structure DatagramWindow where
  datagramHistory : List DatagramHistoryNode
  datagramHistoryPopCount : Uint24
  nextDatagramSequenceNumber : Uint24
  wire : List (List PacketPtr)

def datagramWindow (s : ReliabilityLayer) : DatagramWindow where
  datagramHistory := s.datagramHistory
  datagramHistoryPopCount := s.datagramHistoryPopCount
  nextDatagramSequenceNumber := s.nextDatagramSequenceNumber
  wire := s.history.wire

/-- The history still has a node for the datagram number. -/
def inWindow (s : ReliabilityLayer) (datagramNumber : Uint24) : Bool :=
  decide (s.offsetIntoList datagramNumber < s.datagramHistory.length)

/-- The numbers that the loops over the ranges process: those before the first one for which
the history has no node. -/
def processed (s : ReliabilityLayer) (numbers : List Uint24) : List Uint24 :=
  numbers.takeWhile s.inWindow

/-- The states have nodes for the same numbers. -/
def SameWindow (s t : ReliabilityLayer) : Prop :=
  t.datagramHistory.length = s.datagramHistory.length ∧
    t.datagramHistoryPopCount = s.datagramHistoryPopCount

theorem SameWindow.inWindow_eq (h : SameWindow s t) : t.inWindow = s.inWindow := by
  funext d
  rw [inWindow, offsetIntoList, h.1, h.2]
  rfl

theorem SameWindow.processed_eq (h : SameWindow s t) : t.processed = s.processed := by
  funext numbers
  rw [processed, h.inWindow_eq]
  rfl

section Loops

variable {onDatagram : ReliabilityLayer → Uint24 → ReliabilityLayer}

theorem sameWindow_foldl (hwindow : ∀ s d, SameWindow s (onDatagram s d)) (numbers : List Uint24)
    (s : ReliabilityLayer) : SameWindow s (numbers.foldl onDatagram s) := by
  induction numbers generalizing s with
  | nil => exact ⟨rfl, rfl⟩
  | cons d numbers ih =>
    obtain ⟨hlength, hpop⟩ := ih (onDatagram s d)
    exact ⟨hlength.trans (hwindow s d).1, hpop.trans (hwindow s d).2⟩

theorem rangeLoop_eq (hwindow : ∀ s d, SameWindow s (onDatagram s d)) (numbers : List Uint24)
    (s : ReliabilityLayer) :
    rangeLoop onDatagram s numbers =
      (!numbers.all s.inWindow, (s.processed numbers).foldl onDatagram s) := by
  induction numbers generalizing s with
  | nil => rfl
  | cons d numbers ih =>
    have hsame := hwindow s d
    unfold rangeLoop
    by_cases hd : s.inWindow d = true
    · rw [if_neg (Nat.not_le_of_lt (of_decide_eq_true hd)), ih, hsame.processed_eq,
        hsame.inWindow_eq, List.all_cons, hd, Bool.true_and, processed, processed,
        List.takeWhile_cons_of_pos hd]
      rfl
    · rw [if_pos (Nat.le_of_not_lt fun hlt => hd (decide_eq_true hlt)), List.all_cons,
        Bool.eq_false_of_not_eq_true hd, Bool.false_and, processed, List.takeWhile_cons_of_neg hd]
      rfl

theorem processed_of_all {xs : List Uint24} (h : xs.all s.inWindow = true) :
    s.processed xs = xs :=
  List.takeWhile_eq_self_iff.mpr (List.all_eq_true.mp h)

theorem processed_append (s : ReliabilityLayer) (xs ys : List Uint24) :
    s.processed (xs ++ ys) =
      if xs.all s.inWindow then xs ++ s.processed ys else s.processed xs := by
  split
  · rename_i hall
    exact List.takeWhile_append_of_pos (List.all_eq_true.mp hall)
  · rename_i hout
    unfold processed
    rw [List.takeWhile_append, if_neg]
    intro hlength
    have heq := (List.takeWhile_prefix s.inWindow).sublist.eq_of_length hlength
    apply hout
    rw [← heq]
    exact List.all_takeWhile

/-- Without the reserved value, the ranges are processed up to the first number for which the
history has no node. -/
theorem rangesLoop_eq (hwindow : ∀ s d, SameWindow s (onDatagram s d)) {ranges : List RangeNode}
    (hmax : ∀ r ∈ ranges, r.maxIndex ≠ .ofNat 0xFFFFFFFF) (s : ReliabilityLayer) :
    rangesLoop onDatagram s ranges =
      (.accepted, (s.processed (ranges.flatMap RangeNode.numbers)).foldl onDatagram s) := by
  induction ranges generalizing s with
  | nil => rfl
  | cons r ranges ih =>
    have hsame := sameWindow_foldl hwindow (s.processed r.numbers) s
    unfold rangesLoop
    rw [if_neg (hmax r List.mem_cons_self), rangeLoop_eq hwindow, List.flatMap_cons,
      processed_append]
    dsimp only
    by_cases hall : r.numbers.all s.inWindow = true
    · rw [hall, if_neg (show ¬ (!true) = true from Bool.false_ne_true), if_pos rfl,
        ih fun q hq => hmax q (List.mem_cons_of_mem r hq), hsame.processed_eq,
        processed_of_all hall, List.foldl_append]
    · rw [Bool.eq_false_of_not_eq_true hall, if_pos (show (!false) = true from rfl),
        if_neg Bool.false_ne_true]

end Loops

/-- The message numbers of the packets. -/
def messageNumbers (s : ReliabilityLayer) (p : PacketPtr) : Uint24 :=
  (s.packets p).reliableMessageNumber

/-- Only the outstanding messages change, and fewer of them are left. -/
structure OnlyAcknowledges (s t : ReliabilityLayer) (acknowledged : Uint24 → Prop) : Prop where
  numbers_eq : t.messageNumbers = s.messageNumbers
  allocated_eq : t.allocated = s.allocated
  outgoing_eq : t.outgoingPacketBuffer = s.outgoingPacketBuffer
  window_eq : t.datagramWindow = s.datagramWindow
  outstanding_iff : ∀ p, t.Outstanding p ↔ s.Outstanding p ∧ ¬ acknowledged (s.messageNumbers p)

theorem OnlyAcknowledges.node_eq {acknowledged : Uint24 → Prop}
    (h : OnlyAcknowledges s t acknowledged) :
    t.getMessageNumberNodeByDatagramIndex = s.getMessageNumberNodeByDatagramIndex := by
  funext d
  obtain ⟨hhistory, hpop, -, -⟩ := DatagramWindow.mk.inj h.window_eq
  rw [getMessageNumberNodeByDatagramIndex, offsetIntoList, hhistory, hpop]
  rfl

theorem onlyAcknowledges_removeFromResendBuffer (s : ReliabilityLayer) (p : PacketPtr)
    (number : Uint24) : OnlyAcknowledges s (s.removeFromResendBuffer p number) fun _ => False := by
  have hremove : ∀ (t : ReliabilityLayer) (b : Bool), OnlyAcknowledges t
      (((t.pushReceipt p).removeFromList p b).freeInternalPacketData p) fun _ => False := by
    intro t b
    have hreceipt : OnlyAcknowledges t (t.pushReceipt p) fun _ => False := by
      unfold pushReceipt
      split <;> exact ⟨rfl, rfl, rfl, rfl, fun _ => (and_iff_left id).symm⟩
    generalize t.pushReceipt p = r at hreceipt ⊢
    refine { hreceipt with numbers_eq := ?_ }
    rw [← hreceipt.numbers_eq]
    funext q
    show (Function.update r.packets p _ q).reliableMessageNumber = _
    by_cases hq : q = p
    · rw [hq, Function.update_self]
      rfl
    · rw [Function.update_of_ne hq]
      rfl
  unfold removeFromResendBuffer
  dsimp only
  exact { hremove
    { s with
      resendBuffer := Function.update s.resendBuffer (resendSlot number) none
      messagesInResendBuffer := (2 ^ 32 - 1 + s.messagesInResendBuffer) % 2 ^ 32
      bytesInResendBuffer :=
        (2 ^ 64 - bitsToBytes (s.packets p).dataBitLength + s.bytesInResendBuffer) % 2 ^ 64 }
    (s.packets p).reliability.isReliable with }

theorem onlyAcknowledges_removePacketFromResendList (s : ReliabilityLayer) (number : Uint24) :
    OnlyAcknowledges s (s.removePacketFromResendList number) (· = number) := by
  have hacknowledge : OnlyAcknowledges s (s.acknowledge number) (· = number) := by
    refine ⟨rfl, rfl, rfl, rfl, fun p => ?_⟩
    show p ∈ s.history.sent ∧ p ∉ s.history.acknowledged ++ s.history.sent.filter _ ↔ _
    rw [List.mem_append, List.mem_filter, Bool.and_eq_true, decide_eq_true_eq, Bool.not_eq_true',
      List.contains_eq_mem, decide_eq_false_iff_not]
    unfold Outstanding messageNumbers
    tauto
  have hremove : ∀ t : ReliabilityLayer, OnlyAcknowledges s t (· = number) →
      ∀ p, OnlyAcknowledges s (t.removeFromResendBuffer p number) (· = number) := by
    intro t ht p
    have hp := onlyAcknowledges_removeFromResendBuffer t p number
    refine ⟨hp.numbers_eq.trans ht.numbers_eq, hp.allocated_eq.trans ht.allocated_eq,
      hp.outgoing_eq.trans ht.outgoing_eq, hp.window_eq.trans ht.window_eq, fun q => ?_⟩
    rw [hp.outstanding_iff, ht.outstanding_iff]
    exact and_iff_left id
  unfold removePacketFromResendList
  dsimp only
  split
  · exact hacknowledge
  · split
    · exact hremove _ hacknowledge _
    · exact hacknowledge

theorem onlyAcknowledges_foldl (numbers : List Uint24) (s : ReliabilityLayer) :
    OnlyAcknowledges s (numbers.foldl removePacketFromResendList s) (· ∈ numbers) := by
  induction numbers generalizing s with
  | nil => exact ⟨rfl, rfl, rfl, rfl, fun p => (and_iff_left List.not_mem_nil).symm⟩
  | cons number numbers ih =>
    have hfirst := onlyAcknowledges_removePacketFromResendList s number
    have hrest := ih (s.removePacketFromResendList number)
    refine ⟨hrest.numbers_eq.trans hfirst.numbers_eq,
      hrest.allocated_eq.trans hfirst.allocated_eq, hrest.outgoing_eq.trans hfirst.outgoing_eq,
      hrest.window_eq.trans hfirst.window_eq, fun p => ?_⟩
    rw [List.foldl_cons, hrest.outstanding_iff, hfirst.outstanding_iff, hfirst.numbers_eq,
      List.mem_cons]
    tauto

theorem offsetIntoList_inj (s : ReliabilityLayer) {d d' : Uint24} :
    s.offsetIntoList d = s.offsetIntoList d' ↔ d = d' := by
  constructor
  · intro heq
    have hd := d.isLt
    have hd' := d'.isLt
    have hpop := s.datagramHistoryPopCount.isLt
    rw [offsetIntoList, offsetIntoList, Uint24.val_sub, Uint24.val_sub] at heq
    apply Uint24.ext
    omega
  · intro heq
    rw [heq]

theorem removeFromDatagramHistory_node (s : ReliabilityLayer) (d d' : Uint24) :
    (s.removeFromDatagramHistory d).getMessageNumberNodeByDatagramIndex d' =
      if d' = d then [] else s.getMessageNumberNodeByDatagramIndex d' := by
  have hget : (s.removeFromDatagramHistory d).datagramHistory[s.offsetIntoList d']? =
      (s.datagramHistory[s.offsetIntoList d']?).map fun node =>
        if d' = d then { node with head := [] } else node := by
    show (s.datagramHistory.modify _ _)[s.offsetIntoList d']? = _
    rw [List.getElem?_modify]
    simp only [s.offsetIntoList_inj, eq_comm (a := d)]
    rfl
  have hnil : (s.removeFromDatagramHistory d).datagramHistory = [] ↔ s.datagramHistory = [] :=
    List.modify_eq_nil_iff
  unfold getMessageNumberNodeByDatagramIndex
  rw [show (s.removeFromDatagramHistory d).offsetIntoList d' = s.offsetIntoList d' from rfl, hget,
    show (s.removeFromDatagramHistory d).datagramHistoryPopCount =
      s.datagramHistoryPopCount from rfl]
  simp only [hnil]
  cases s.datagramHistory[s.offsetIntoList d']? with
  | none => simp only [Option.map_none, ite_self]
  | some node =>
    simp only [Option.map_some]
    split_ifs <;> rfl

/-- What processing the datagram numbers of an acknowledgement does. -/
structure Acknowledges (s t : ReliabilityLayer) (numbers : List Uint24) : Prop where
  numbers_eq : t.messageNumbers = s.messageNumbers
  window : SameWindow s t
  node_eq : ∀ d, t.getMessageNumberNodeByDatagramIndex d =
    if d ∈ numbers then [] else s.getMessageNumberNodeByDatagramIndex d
  outstanding_iff : ∀ p, t.Outstanding p ↔ s.Outstanding p ∧
    ∀ d ∈ numbers, s.messageNumbers p ∉ s.getMessageNumberNodeByDatagramIndex d

theorem acknowledges_ackDatagram (s : ReliabilityLayer) (d : Uint24) :
    Acknowledges s (s.ackDatagram d) [d] := by
  unfold ackDatagram
  split
  · rename_i hnil
    refine ⟨rfl, ⟨rfl, rfl⟩, fun d' => ?_, fun p => ?_⟩
    · split
      · rename_i hmem
        rw [List.mem_singleton.mp hmem, hnil]
      · rfl
    · simp only [List.mem_singleton, forall_eq, hnil, List.not_mem_nil, not_false_iff, and_true]
  · rename_i node _
    have hfold := onlyAcknowledges_foldl (s.getMessageNumberNodeByDatagramIndex d) s
    generalize (s.getMessageNumberNodeByDatagramIndex d).foldl removePacketFromResendList s = t
      at hfold ⊢
    obtain ⟨hhistory, hpop, -, -⟩ := DatagramWindow.mk.inj hfold.window_eq
    refine ⟨hfold.numbers_eq, ⟨?_, hpop⟩, fun d' => ?_, fun p => ?_⟩
    · exact (List.length_modify ..).trans (congrArg List.length hhistory)
    · rw [removeFromDatagramHistory_node, hfold.node_eq]
      simp only [List.mem_singleton]
    · simp only [List.mem_singleton, forall_eq]
      exact hfold.outstanding_iff p

theorem acknowledges_foldl (numbers : List Uint24) (s : ReliabilityLayer) :
    Acknowledges s (numbers.foldl ackDatagram s) numbers := by
  induction numbers generalizing s with
  | nil =>
    refine ⟨rfl, ⟨rfl, rfl⟩, fun d => (if_neg List.not_mem_nil).symm, fun p => ?_⟩
    exact (and_iff_left (List.forall_mem_nil _)).symm
  | cons d numbers ih =>
    have hfirst := acknowledges_ackDatagram s d
    have hrest := ih (s.ackDatagram d)
    refine ⟨hrest.numbers_eq.trans hfirst.numbers_eq,
      ⟨hrest.window.1.trans hfirst.window.1, hrest.window.2.trans hfirst.window.2⟩,
      fun d' => ?_, fun p => ?_⟩
    · rw [List.foldl_cons, hrest.node_eq, hfirst.node_eq]
      simp only [List.mem_cons, List.not_mem_nil, or_false]
      split_ifs <;> tauto
    · rw [List.foldl_cons, hrest.outstanding_iff, hfirst.outstanding_iff, hfirst.numbers_eq]
      simp only [hfirst.node_eq, List.mem_cons, forall_eq_or_imp, List.not_mem_nil, or_false,
        forall_eq]
      rw [and_assoc]
      apply and_congr_right
      intro _
      apply and_congr_right
      intro hd
      apply forall_congr'
      intro d'
      apply imp_congr_right
      intro _
      split
      · rename_i heq
        rw [heq]
        exact iff_of_true List.not_mem_nil hd
      · exact Iff.rfl

end ReliabilityLayer

end SLikeNet
