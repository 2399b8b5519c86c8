import SLikeNet.AckHandling
import Mathlib.Logic.Relation

/-! The packing loops of `UpdateInternal` as sequences of small steps, so that what the
steps keep, the loops keep. -/

namespace SLikeNet

namespace ReliabilityLayer

/-- What the packing loops do, one operation at a time, under the tests of the source. -/
inductive PackStep (u : UpdateInput) : ReliabilityLayer → ReliabilityLayer → Prop
  | clearAllDatagramSizes (s : ReliabilityLayer) : PackStep u s s.clearAllDatagramSizes
  | pushDatagram (s : ReliabilityLayer) : PackStep u s s.pushDatagram
  | resend (s : ReliabilityLayer) (p : PacketPtr) (hhead : s.resendLinkedList.head = some p)
      (hdue : isDue u.time (s.packets p).nextActionTime = true)
      (hfits : s.exceedsDatagram p = false) : PackStep u s (s.resendPacket u p)
  | drop (s : ReliabilityLayer) (p : PacketPtr) (hpeek : s.outgoingPacketBuffer.peek = some p)
      (hnull : (s.packets p).data = none) : PackStep u s s.popOutgoing
  | setHeaderLength (s : ReliabilityLayer) (p : PacketPtr)
      (hpeek : s.outgoingPacketBuffer.peek = some p) : PackStep u s (s.setHeaderLength p)
  | send (s : ReliabilityLayer) (p : PacketPtr) (hpeek : s.outgoingPacketBuffer.peek = some p)
      (hheader : (s.packets p).headerLength = (s.packets p).getMessageHeaderLengthBits)
      (hfits : s.exceedsDatagram p = false) (hroom : s.resendBufferOverflow = false) :
      PackStep u s (s.sendPacket u p)

abbrev PackSteps (u : UpdateInput) := Relation.ReflTransGen (PackStep u)

/-- The steps of the loop that empties the send queue. -/
inductive SendStep (u : UpdateInput) : ReliabilityLayer → ReliabilityLayer → Prop
  | pushDatagram (s : ReliabilityLayer) : SendStep u s s.pushDatagram
  | drop (s : ReliabilityLayer) (p : PacketPtr) (hpeek : s.outgoingPacketBuffer.peek = some p)
      (hnull : (s.packets p).data = none) : SendStep u s s.popOutgoing
  | setHeaderLength (s : ReliabilityLayer) (p : PacketPtr)
      (hpeek : s.outgoingPacketBuffer.peek = some p) : SendStep u s (s.setHeaderLength p)
  | send (s : ReliabilityLayer) (p : PacketPtr) (hpeek : s.outgoingPacketBuffer.peek = some p)
      (hheader : (s.packets p).headerLength = (s.packets p).getMessageHeaderLengthBits)
      (hfits : s.exceedsDatagram p = false) (hroom : s.resendBufferOverflow = false) :
      SendStep u s (s.sendPacket u p)

abbrev SendSteps (u : UpdateInput) := Relation.ReflTransGen (SendStep u)

variable {u : UpdateInput}

theorem SendStep.packStep {s t : ReliabilityLayer} (h : SendStep u s t) : PackStep u s t := by
  cases h with
  | pushDatagram => exact .pushDatagram s
  | drop p hpeek hnull => exact .drop s p hpeek hnull
  | setHeaderLength p hpeek => exact .setHeaderLength s p hpeek
  | send p hpeek hheader hfits hroom => exact .send s p hpeek hheader hfits hroom

theorem resendDatagram_steps (fuel : ℕ) (pushedAnything : Bool) (s : ReliabilityLayer) :
    PackSteps u s (resendDatagram u fuel pushedAnything s).2 := by
  induction fuel generalizing pushedAnything s with
  | zero => exact .refl
  | succ fuel ih =>
    simp only [resendDatagram]
    split
    · exact .refl
    · rename_i p hhead
      split
      · rename_i hdue
        split
        · exact .single (.pushDatagram s)
        · rename_i hfits
          exact .head (.resend s p hhead hdue (by simpa using hfits)) (ih true _)
      · exact .single (.pushDatagram s)

theorem resendLoop_steps (retransmissionBandwidth : ℤ) (fuel : ℕ) (s : ReliabilityLayer) :
    PackSteps u s (resendLoop u retransmissionBandwidth fuel s) := by
  induction fuel generalizing s with
  | zero => exact .refl
  | succ fuel ih =>
    have hfill := resendDatagram_steps (u := u) (s.messagesInResendBuffer + 1) false s
    simp only [resendLoop]
    split
    · split
      · exact hfill.trans (ih _)
      · exact hfill
    · exact .refl

@[simp] theorem resendBufferOverflow_popOutgoing (s : ReliabilityLayer) :
    s.popOutgoing.resendBufferOverflow = s.resendBufferOverflow := by
  unfold popOutgoing
  split <;> rfl

theorem fillDatagram_steps (fuel : ℕ) {s : ReliabilityLayer}
    (hroom : s.resendBufferOverflow = false) : SendSteps u s (fillDatagram u fuel s) := by
  induction fuel generalizing s with
  | zero => exact .refl
  | succ fuel ih =>
    simp only [fillDatagram]
    split
    · exact .refl
    · rename_i p hpeek
      split
      · rename_i hnull
        refine .head (.drop s p hpeek hnull) (ih ?_)
        rw [resendBufferOverflow_popOutgoing, hroom]
      · apply Relation.ReflTransGen.head (.setHeaderLength s p hpeek)
        split
        · exact .refl
        · rename_i hfits
          have hsend : SendStep u (s.setHeaderLength p) ((s.setHeaderLength p).sendPacket u p) := by
            apply SendStep.send (s.setHeaderLength p) p hpeek _ (by simpa using hfits) hroom
            simp only [setHeaderLength, modifyPacket, Function.update_self]
          split
          · exact .single hsend
          · rename_i hroom'
            exact .head hsend (ih (by simpa using hroom'))

theorem sendDatagram_steps {s : ReliabilityLayer} (hroom : s.resendBufferOverflow = false) :
    SendSteps u s (s.sendDatagram u) := by
  unfold sendDatagram
  split
  · exact .refl
  · exact fillDatagram_steps _ hroom

theorem sendLoop_steps (fuel : ℕ) (s : ReliabilityLayer) : SendSteps u s (sendLoop u fuel s) := by
  induction fuel generalizing s with
  | zero => exact .refl
  | succ fuel ih =>
    simp only [sendLoop]
    split
    · rename_i hmay
      have hroom : s.resendBufferOverflow = false := by
        simp only [mayFillDatagram, Bool.and_eq_true, Bool.not_eq_true'] at hmay
        exact hmay.1
      split
      · exact sendDatagram_steps hroom
      · exact (sendDatagram_steps hroom).trans (.head (.pushDatagram _) (ih _))
    · exact .refl

theorem packDatagrams_steps (s : ReliabilityLayer) : PackSteps u s (s.packDatagrams u) := by
  have hresend : PackSteps u s
      (if toInt32 s.unacknowledgedBytes > 0 ∨ u.transmissionBandwidth > 0 then
        resendLoop u (toInt32 s.unacknowledgedBytes) (s.messagesInResendBuffer + 1)
          s.clearAllDatagramSizes
      else s) := by
    split
    · exact .head (.clearAllDatagramSizes s) (resendLoop_steps _ _ _)
    · exact .refl
  unfold packDatagrams
  dsimp only
  generalize (if toInt32 s.unacknowledgedBytes > 0 ∨ u.transmissionBandwidth > 0 then
    resendLoop u (toInt32 s.unacknowledgedBytes) (s.messagesInResendBuffer + 1)
      s.clearAllDatagramSizes else s) = t at hresend ⊢
  split
  · exact hresend.trans (.head (.clearAllDatagramSizes t)
      ((sendLoop_steps _ _).lift id fun _ _ => SendStep.packStep))
  · exact hresend

theorem packDatagrams_induction {P : ReliabilityLayer → Prop} {s : ReliabilityLayer}
    (hstep : ∀ t t', PackStep u t t' → P t → P t') (h : P s) : P (s.packDatagrams u) := by
  have hsteps := packDatagrams_steps (u := u) s
  generalize s.packDatagrams u = t at hsteps
  induction hsteps with
  | refl => exact h
  | tail _ hlast ih => exact hstep _ _ hlast ih

end ReliabilityLayer

end SLikeNet
