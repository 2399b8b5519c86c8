import SLikeNet.Library.ReorderBuffer
import SLikeNet.Packet

/-! The messages a sender stamps on one ordering channel, with the numbers their
indices stand for. -/

namespace SLikeNet

/-- An ordered or sequenced message as it is written to the wire. The indices in
its header are `order` and `sequence` modulo `2 ^ 24`. -/
structure SentMessage where
  header : TransmissionHeader
  order : ℕ
  sequence : ℕ
  reliability_eq : header.reliability = .reliableSequenced ∨
    header.reliability = .unreliableSequenced ∨ header.reliability = .reliableOrdered
  orderingIndex_eq : header.orderingIndex = .ofNat order
  sequencingIndex_eq : header.reliability.isSequenced → header.sequencingIndex = .ofNat sequence
deriving DecidableEq

namespace SentMessage

instance : HasTransmissionHeader SentMessage := ⟨SentMessage.header⟩

def isSequenced (m : SentMessage) : Bool := m.header.reliability.isSequenced

/-- Sequenced messages stand before the ordered message that shares their ordering index. -/
def rank (m : SentMessage) : WithTop ℕ := if m.isSequenced then .some m.sequence else ⊤

theorem isSequenced_eq_false {m : SentMessage} :
    m.isSequenced = false ↔ m.header.reliability = .reliableOrdered := by
  rcases m.reliability_eq with h | h | h <;> simp [isSequenced, h, PacketReliability.isSequenced]

theorem rank_eq_top {m : SentMessage} : m.rank = ⊤ ↔ m.isSequenced = false := by
  unfold rank
  split <;> simp_all

theorem rank_of_sequenced {m : SentMessage} (h : m.isSequenced = true) :
    m.rank = .some m.sequence := if_pos h

end SentMessage

/-- The write indices of a channel and the numbers they stand for. -/
structure NumberedWriter where
  indices : WriteIndices
  order : ℕ
  sequence : ℕ
  ordered_eq : indices.orderedWriteIndex = .ofNat order
  sequenced_eq : indices.sequencedWriteIndex = .ofNat sequence

namespace NumberedWriter

/-- The channel of a new connection. -/
def initial : NumberedWriter := ⟨⟨0, 0⟩, 0, 0, rfl, rfl⟩

/-- The header that a message with reliability `h.reliability` has on the wire. -/
def wireHeader (w : NumberedWriter) (channel : Nat) (h : TransmissionHeader) :
    TransmissionHeader :=
  { (w.indices.assign channel h).1 with reliability := h.reliability.onWire }

/-- `Send` on the channel, with the message it puts on the wire. -/
def stamp (w : NumberedWriter) (channel : Nat) (h : TransmissionHeader) :
    Option SentMessage × NumberedWriter :=
  if hs : h.reliability.isSequenced then
    (some
      { header := w.wireHeader channel h
        order := w.order
        sequence := w.sequence
        reliability_eq := by
          revert hs
          dsimp only [wireHeader]
          cases h.reliability <;>
            simp [PacketReliability.isSequenced, PacketReliability.onWire]
        orderingIndex_eq := by simp [wireHeader, WriteIndices.assign, hs, w.ordered_eq]
        sequencingIndex_eq := by simp [wireHeader, WriteIndices.assign, hs, w.sequenced_eq] },
      { indices := (w.indices.assign channel h).2
        order := w.order
        sequence := w.sequence + 1
        ordered_eq := by simp [WriteIndices.assign, hs, w.ordered_eq]
        sequenced_eq := by simp [WriteIndices.assign, hs, w.sequenced_eq] })
  else if ho : h.reliability.isOrdered then
    (some
      { header := w.wireHeader channel h
        order := w.order
        sequence := w.sequence
        reliability_eq := by
          revert ho
          dsimp only [wireHeader]
          cases h.reliability <;>
            simp [PacketReliability.isOrdered, PacketReliability.onWire]
        orderingIndex_eq := by simp [wireHeader, WriteIndices.assign, hs, ho, w.ordered_eq]
        sequencingIndex_eq := by
          intro hs'
          exact absurd ((PacketReliability.isSequenced_onWire _).symm.trans hs') hs },
      { indices := (w.indices.assign channel h).2
        order := w.order + 1
        sequence := 0
        ordered_eq := by simp [WriteIndices.assign, hs, ho, w.ordered_eq]
        sequenced_eq := by simp [WriteIndices.assign, hs, ho]; rfl })
  else (none, w)

/-- The messages on the wire after the given calls of `Send`, in their order. -/
def stampAll (channel : Nat) : NumberedWriter → List TransmissionHeader → List SentMessage
  | _, [] => []
  | w, h :: hs => (w.stamp channel h).1.toList ++ stampAll channel (w.stamp channel h).2 hs

end NumberedWriter

/-- What a conforming sender stamped on a channel. -/
def sentMessages (channel : Nat) (sends : List TransmissionHeader) : List SentMessage :=
  NumberedWriter.initial.stampAll channel sends

namespace NumberedWriter

variable {w : NumberedWriter} {channel : Nat} {h : TransmissionHeader} {m : SentMessage}

theorem stamp_cases (w : NumberedWriter) (channel : Nat) (h : TransmissionHeader) :
    (∃ m, (w.stamp channel h).1 = some m ∧ m.isSequenced = true ∧ m.order = w.order ∧
      m.sequence = w.sequence ∧ (w.stamp channel h).2.order = w.order ∧
      (w.stamp channel h).2.sequence = w.sequence + 1) ∨
    (∃ m, (w.stamp channel h).1 = some m ∧ m.isSequenced = false ∧ m.order = w.order ∧
      (w.stamp channel h).2.order = w.order + 1 ∧ (w.stamp channel h).2.sequence = 0) ∨
    ((w.stamp channel h).1 = none ∧ (w.stamp channel h).2 = w) := by
  by_cases hs : h.reliability.isSequenced
  · rw [stamp, dif_pos hs]
    refine .inl ⟨_, rfl, ?_, rfl, rfl, rfl, rfl⟩
    exact (PacketReliability.isSequenced_onWire _).trans hs
  · by_cases ho : h.reliability.isOrdered
    · rw [stamp, dif_neg hs, dif_pos ho]
      refine .inr (.inl ⟨_, rfl, ?_, rfl, rfl, rfl⟩)
      exact (PacketReliability.isSequenced_onWire _).trans (by simpa using hs)
    · rw [stamp, dif_neg hs, dif_neg ho]
      exact .inr (.inr ⟨rfl, rfl⟩)

theorem le_of_mem_stampAll {hs : List TransmissionHeader} (hm : m ∈ w.stampAll channel hs) :
    w.order < m.order ∨ w.order = m.order ∧ (m.isSequenced = true → w.sequence ≤ m.sequence) := by
  induction hs generalizing w with
  | nil => simp [stampAll] at hm
  | cons h hs ih =>
    simp only [stampAll, List.mem_append, Option.mem_toList] at hm
    rcases stamp_cases w channel h with ⟨n, h1, -, ho, hq, ho', hq'⟩ | ⟨n, h1, hn, ho, ho', -⟩ |
      ⟨h1, h2⟩
    · rcases hm with hm | hm
      · obtain rfl : n = m := Option.some.inj (h1.symm.trans hm)
        exact .inr ⟨ho.symm, fun _ => hq.ge⟩
      · rcases ih hm with hlt | ⟨heq, hle⟩
        · exact .inl (ho' ▸ hlt)
        · exact .inr ⟨ho' ▸ heq, fun hseq => by have := hle hseq; omega⟩
    · rcases hm with hm | hm
      · obtain rfl : n = m := Option.some.inj (h1.symm.trans hm)
        exact .inr ⟨ho.symm, fun hseq => by simp [hn] at hseq⟩
      · rcases ih hm with hlt | ⟨heq, -⟩ <;> exact .inl (by omega)
    · rw [h1, h2] at hm
      exact ih (hm.resolve_left (by simp))

theorem stampAll_sorted (w : NumberedWriter) (channel : Nat) (hs : List TransmissionHeader) :
    ReorderBuffer.Sorted SentMessage.order SentMessage.rank (w.stampAll channel hs) := by
  induction hs generalizing w with
  | nil => exact List.Pairwise.nil
  | cons h hs ih =>
    simp only [stampAll]
    rcases stamp_cases w channel h with ⟨n, h1, hn, ho, hq, ho', hq'⟩ | ⟨n, h1, hn, ho, ho', hq'⟩ |
      ⟨h1, h2⟩
    · rw [h1]
      refine List.pairwise_cons.mpr ⟨fun m hm => ?_, ih _⟩
      rcases le_of_mem_stampAll hm with hlt | ⟨heq, hle⟩
      · exact .inl (by omega)
      · refine .inr ⟨by omega, ?_⟩
        rw [SentMessage.rank_of_sequenced hn]
        by_cases hm' : m.isSequenced = true
        · rw [SentMessage.rank_of_sequenced hm']
          have := hle hm'
          exact WithTop.coe_lt_coe.mpr (by omega)
        · rw [SentMessage.rank_eq_top.mpr (by simpa using hm')]
          exact WithTop.coe_lt_top _
    · rw [h1]
      refine List.pairwise_cons.mpr ⟨fun m hm => .inl ?_, ih _⟩
      rcases le_of_mem_stampAll hm with hlt | ⟨heq, -⟩ <;> omega
    · rw [h1, h2]
      exact ih w

theorem stampAll_ordered (w : NumberedWriter) (channel : Nat) (hs : List TransmissionHeader) :
    ∃ n, ((w.stampAll channel hs).filter fun m => !m.isSequenced).map SentMessage.order =
      List.range' w.order n ∧ ∀ m ∈ w.stampAll channel hs, m.order ≤ w.order + n := by
  induction hs generalizing w with
  | nil => exact ⟨0, by simp [stampAll]⟩
  | cons h hs ih =>
    simp only [stampAll]
    obtain ⟨n, hn, hle⟩ := ih (w.stamp channel h).2
    rcases stamp_cases w channel h with ⟨m, h1, hm, ho, -, ho', -⟩ | ⟨m, h1, hm, ho, ho', -⟩ |
      ⟨h1, h2⟩
    · rw [ho'] at hn hle
      refine ⟨n, by simpa [h1, hm] using hn, fun k hk => ?_⟩
      rcases List.mem_cons.mp (by simpa [h1] using hk) with rfl | hk
      · omega
      · exact hle k hk
    · rw [ho'] at hn hle
      refine ⟨n + 1, by simp [h1, hm, hn, ho, List.range'_succ], fun k hk => ?_⟩
      rcases List.mem_cons.mp (by simpa [h1] using hk) with rfl | hk
      · omega
      · have := hle k hk
        omega
    · rw [h2] at hn hle
      exact ⟨n, by simpa [h1, h2] using hn, by simpa [h1, h2] using hle⟩

theorem stampAll_sequence {hs : List TransmissionHeader} (hm : m ∈ w.stampAll channel hs)
    (hseq : m.isSequenced = true) {s : ℕ} (hs' : w.order = m.order → w.sequence ≤ s)
    (hlt : s < m.sequence) :
    ∃ m' ∈ w.stampAll channel hs, m'.isSequenced = true ∧ m'.sequence = s := by
  induction hs generalizing w with
  | nil => simp [stampAll] at hm
  | cons h hs ih =>
    simp only [stampAll, List.mem_append, Option.mem_toList] at hm ⊢
    rcases stamp_cases w channel h with ⟨n, h1, hn, ho, hq, ho', hq'⟩ | ⟨n, h1, hn, ho, ho', hq'⟩ |
      ⟨h1, h2⟩
    · rcases hm with hm | hm
      · obtain rfl : n = m := Option.some.inj (h1.symm.trans hm)
        have := hs' ho.symm
        omega
      · by_cases he : w.order = m.order ∧ w.sequence = s
        · exact ⟨n, .inl h1, hn, by omega⟩
        · obtain ⟨m', hm', h⟩ := ih hm fun heq => by
            have := hs' (ho' ▸ heq)
            have : w.sequence ≠ s := fun h => he ⟨ho' ▸ heq, h⟩
            omega
          exact ⟨m', .inr hm', h⟩
    · rcases hm with hm | hm
      · obtain rfl : n = m := Option.some.inj (h1.symm.trans hm)
        simp [hn] at hseq
      · obtain ⟨m', hm', h⟩ := ih hm fun _ => by omega
        exact ⟨m', .inr hm', h⟩
    · rw [h1, h2] at hm ⊢
      obtain ⟨m', hm', h⟩ := ih (hm.resolve_left (by simp)) hs'
      exact ⟨m', .inr hm', h⟩

end NumberedWriter

end SLikeNet
