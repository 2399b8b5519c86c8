import SLikeNet.AckTraffic
import Mathlib.Data.Rat.Floor
import Mathlib.Tactic.Linarith
import Mathlib.Tactic.Positivity
import Mathlib.Tactic.Ring

/-! `CCRakNetSlidingWindow`: the congestion window and the retransmission timeout, with exact
rationals in place of `double`. -/

namespace SLikeNet

structure CCRakNetSlidingWindow where
  maximumMtuIncludingUdpHeader : ℕ
  cwnd : ℚ
  ssThresh : ℚ
  lastRtt : ℚ
  estimatedRTT : ℚ
  deviationRtt : ℚ
  nextDatagramSequenceNumber : Uint24
  nextCongestionControlBlock : Uint24
  backoffThisBlock : Bool
  speedUpThisBlock : Bool
  isContinuousSend : Bool

namespace CCRakNetSlidingWindow

/-- `UNSET_TIME_US` -/
def unsetTimeUS : ℚ := -1

/-- `uint32_t` products wrap. -/
def mul32 (a b : ℕ) : ℕ := a * b % 2 ^ 32

def init (maxDatagramPayload : ℕ) : CCRakNetSlidingWindow where
  maximumMtuIncludingUdpHeader := maxDatagramPayload
  cwnd := maxDatagramPayload
  ssThresh := 0
  lastRtt := unsetTimeUS
  estimatedRTT := unsetTimeUS
  deviationRtt := unsetTimeUS
  nextDatagramSequenceNumber := 0
  nextCongestionControlBlock := 0
  backoffThisBlock := false
  speedUpThisBlock := false
  isContinuousSend := false

def getAndIncrementNextDatagramSequenceNumber (s : CCRakNetSlidingWindow) :
    Uint24 × CCRakNetSlidingWindow :=
  (s.nextDatagramSequenceNumber,
    { s with nextDatagramSequenceNumber := s.nextDatagramSequenceNumber.succ })

/-- The result is the whole bytes that are left of the window. -/
def getTransmissionBandwidth (s : CCRakNetSlidingWindow) (unacknowledgedBytes : ℕ)
    (isContinuousSend : Bool) : ℕ × CCRakNetSlidingWindow :=
  let s := { s with isContinuousSend := isContinuousSend }
  if (unacknowledgedBytes : ℚ) ≤ s.cwnd then (⌊s.cwnd - unacknowledgedBytes⌋.toNat, s) else (0, s)

def onResend (s : CCRakNetSlidingWindow) : CCRakNetSlidingWindow :=
  if s.isContinuousSend ∧ s.backoffThisBlock = false ∧
      s.cwnd > mul32 s.maximumMtuIncludingUdpHeader 2 then
    let ssThresh := s.cwnd / 2
    { s with
      ssThresh :=
        if ssThresh < s.maximumMtuIncludingUdpHeader then s.maximumMtuIncludingUdpHeader
        else ssThresh
      cwnd := s.maximumMtuIncludingUdpHeader
      -- only back off once per period
      nextCongestionControlBlock := s.nextDatagramSequenceNumber
      backoffThisBlock := true }
  else s

def onNAK (s : CCRakNetSlidingWindow) : CCRakNetSlidingWindow :=
  if s.isContinuousSend ∧ s.backoffThisBlock = false then { s with ssThresh := s.cwnd / 2 } else s

def isInSlowStart (s : CCRakNetSlidingWindow) : Prop := s.cwnd ≤ s.ssThresh ∨ s.ssThresh = 0

instance (s : CCRakNetSlidingWindow) : Decidable s.isInSlowStart :=
  inferInstanceAs (Decidable (_ ∨ _))

/-- The times of `OnAck`. -/
def recordRtt (s : CCRakNetSlidingWindow) (rtt : ℕ) : CCRakNetSlidingWindow :=
  if s.estimatedRTT = unsetTimeUS then
    { s with lastRtt := rtt, estimatedRTT := rtt, deviationRtt := rtt }
  else
    let d : ℚ := 1 / 20
    let difference := rtt - s.estimatedRTT
    { s with
      lastRtt := rtt
      estimatedRTT := s.estimatedRTT + d * difference
      deviationRtt := s.deviationRtt + d * (|difference| - s.deviationRtt) }

/-- The window of `OnAck`. -/
def growWindow (s : CCRakNetSlidingWindow) (isNewCongestionControlPeriod : Bool) :
    CCRakNetSlidingWindow :=
  let mtu := s.maximumMtuIncludingUdpHeader
  if s.isInSlowStart then
    let cwnd := s.cwnd + mtu
    { s with
      cwnd :=
        if cwnd > s.ssThresh ∧ s.ssThresh ≠ 0 then s.ssThresh + mul32 mtu mtu / cwnd else cwnd }
  else if isNewCongestionControlPeriod then
    { s with cwnd := s.cwnd + mul32 mtu mtu / s.cwnd }
  else s

def onAck (s : CCRakNetSlidingWindow) (rtt : ℕ) (isContinuousSend : Bool)
    (sequenceNumber : Uint24) : CCRakNetSlidingWindow :=
  let s := { s.recordRtt rtt with isContinuousSend := isContinuousSend }
  if isContinuousSend = false then s
  else
    let isNewCongestionControlPeriod := greaterThan sequenceNumber s.nextCongestionControlBlock
    let s :=
      if isNewCongestionControlPeriod then
        { s with
          backoffThisBlock := false
          speedUpThisBlock := false
          nextCongestionControlBlock := s.nextDatagramSequenceNumber }
      else s
    s.growWindow isNewCongestionControlPeriod

inductive WindowCall
  | onAck (rtt : ℕ) (isContinuousSend : Bool) (sequenceNumber : Uint24)
  | onNAK
  | onResend
  | getTransmissionBandwidth (unacknowledgedBytes : ℕ) (isContinuousSend : Bool)
  | getAndIncrementNextDatagramSequenceNumber

def call (s : CCRakNetSlidingWindow) : WindowCall → CCRakNetSlidingWindow
  | .onAck rtt isContinuousSend sequenceNumber => s.onAck rtt isContinuousSend sequenceNumber
  | .onNAK => s.onNAK
  | .onResend => s.onResend
  | .getTransmissionBandwidth unacknowledgedBytes isContinuousSend =>
    (s.getTransmissionBandwidth unacknowledgedBytes isContinuousSend).2
  | .getAndIncrementNextDatagramSequenceNumber =>
    s.getAndIncrementNextDatagramSequenceNumber.2

def run (maxDatagramPayload : ℕ) (calls : List WindowCall) : CCRakNetSlidingWindow :=
  calls.foldl call (init maxDatagramPayload)

/-- The round trip times are both unset or both nonnegative. -/
def TimesSet (s : CCRakNetSlidingWindow) : Prop :=
  s.estimatedRTT = unsetTimeUS ∧ s.deviationRtt = unsetTimeUS ∨
    0 ≤ s.estimatedRTT ∧ 0 ≤ s.deviationRtt

/-- What every run keeps. -/
structure Sound (mtu : ℕ) (s : CCRakNetSlidingWindow) : Prop where
  mtu_eq : s.maximumMtuIncludingUdpHeader = mtu
  mtu_le : (mtu : ℚ) ≤ s.cwnd
  times : s.TimesSet

variable {mtu : ℕ} {s : CCRakNetSlidingWindow}

theorem timesSet_recordRtt (h : s.TimesSet) (rtt : ℕ) :
    0 ≤ (s.recordRtt rtt).estimatedRTT ∧ 0 ≤ (s.recordRtt rtt).deviationRtt := by
  have hrtt : (0 : ℚ) ≤ rtt := Nat.cast_nonneg rtt
  rw [recordRtt]
  split
  · exact ⟨hrtt, hrtt⟩
  · rename_i hset
    rcases h with ⟨hunset, -⟩ | ⟨hestimated, hdeviation⟩
    · exact absurd hunset hset
    · have habs := abs_nonneg ((rtt : ℚ) - s.estimatedRTT)
      dsimp only
      constructor
      · linarith
      · linarith

theorem cwnd_growWindow (hpos : 0 < s.cwnd) (isNewCongestionControlPeriod : Bool) :
    s.cwnd ≤ (s.growWindow isNewCongestionControlPeriod).cwnd := by
  have hmtu : (0 : ℚ) ≤ s.maximumMtuIncludingUdpHeader := Nat.cast_nonneg _
  have hmul : (0 : ℚ) ≤ mul32 s.maximumMtuIncludingUdpHeader s.maximumMtuIncludingUdpHeader :=
    Nat.cast_nonneg _
  rw [growWindow]
  dsimp only
  split
  · rename_i hslow
    dsimp only
    split
    · rename_i hover
      have hle : s.cwnd ≤ s.ssThresh := hslow.resolve_right hover.2
      have hstep := div_nonneg hmul (by linarith : 0 ≤ s.cwnd + s.maximumMtuIncludingUdpHeader)
      linarith
    · linarith
  · split
    · have hstep := div_nonneg hmul (le_of_lt hpos)
      show s.cwnd ≤ s.cwnd + _
      linarith
    · exact le_refl _

theorem growWindow_frame (s : CCRakNetSlidingWindow) (isNewCongestionControlPeriod : Bool) :
    (s.growWindow isNewCongestionControlPeriod).maximumMtuIncludingUdpHeader =
        s.maximumMtuIncludingUdpHeader ∧
      (s.growWindow isNewCongestionControlPeriod).estimatedRTT = s.estimatedRTT ∧
      (s.growWindow isNewCongestionControlPeriod).deviationRtt = s.deviationRtt := by
  rw [growWindow]
  dsimp only
  split
  · exact ⟨rfl, rfl, rfl⟩
  · split
    · exact ⟨rfl, rfl, rfl⟩
    · exact ⟨rfl, rfl, rfl⟩

theorem recordRtt_frame (s : CCRakNetSlidingWindow) (rtt : ℕ) :
    (s.recordRtt rtt).maximumMtuIncludingUdpHeader = s.maximumMtuIncludingUdpHeader ∧
      (s.recordRtt rtt).cwnd = s.cwnd := by
  rw [recordRtt]
  split
  · exact ⟨rfl, rfl⟩
  · exact ⟨rfl, rfl⟩

/-- `OnAck` only grows the window, and changes the round trip times whatever it is told of the
sender. -/
theorem onAck_spec (hpos : 0 < s.cwnd) (rtt : ℕ) (isContinuousSend : Bool)
    (sequenceNumber : Uint24) :
    s.cwnd ≤ (s.onAck rtt isContinuousSend sequenceNumber).cwnd ∧
      (s.onAck rtt isContinuousSend sequenceNumber).maximumMtuIncludingUdpHeader =
        s.maximumMtuIncludingUdpHeader ∧
      (s.onAck rtt isContinuousSend sequenceNumber).estimatedRTT =
        (s.recordRtt rtt).estimatedRTT ∧
      (s.onAck rtt isContinuousSend sequenceNumber).deviationRtt =
        (s.recordRtt rtt).deviationRtt := by
  obtain ⟨hmtu, hcwnd⟩ := s.recordRtt_frame rtt
  rw [onAck]
  dsimp only
  generalize s.recordRtt rtt = t at hmtu hcwnd ⊢
  have hpos' : 0 < t.cwnd := hcwnd ▸ hpos
  split
  · exact ⟨le_of_eq hcwnd.symm, hmtu, rfl, rfl⟩
  · generalize greaterThan sequenceNumber t.nextCongestionControlBlock = isNew
    -- a new period leaves the window and the times as they are
    obtain ⟨u, hu, hframe⟩ : ∃ u : CCRakNetSlidingWindow,
        (if isNew = true then
          { t with
            isContinuousSend := isContinuousSend
            backoffThisBlock := false
            speedUpThisBlock := false
            nextCongestionControlBlock := t.nextDatagramSequenceNumber }
        else { t with isContinuousSend := isContinuousSend }) = u ∧
          u.cwnd = t.cwnd ∧ u.maximumMtuIncludingUdpHeader = t.maximumMtuIncludingUdpHeader ∧
          u.estimatedRTT = t.estimatedRTT ∧ u.deviationRtt = t.deviationRtt := by
      refine ⟨_, rfl, ?_⟩
      split
      · exact ⟨rfl, rfl, rfl, rfl⟩
      · exact ⟨rfl, rfl, rfl, rfl⟩
    obtain ⟨hu1, hu2, hu3, hu4⟩ := hframe
    obtain ⟨hg1, hg2, hg3⟩ := u.growWindow_frame isNew
    have hgrow := cwnd_growWindow (s := u) (hu1 ▸ hpos') isNew
    rw [hu]
    refine ⟨?_, hg1.trans (hu2.trans hmtu), hg2.trans hu3, hg3.trans hu4⟩
    rw [← hcwnd, ← hu1]
    exact hgrow

theorem Sound.init (mtu : ℕ) : Sound mtu (init mtu) :=
  ⟨rfl, le_refl _, .inl ⟨rfl, rfl⟩⟩

theorem Sound.cwnd_pos (hmtu : 0 < mtu) (h : Sound mtu s) : 0 < s.cwnd := by
  have hpos : (0 : ℚ) < mtu := Nat.cast_pos.mpr hmtu
  exact lt_of_lt_of_le hpos h.mtu_le

theorem Sound.onResend (h : Sound mtu s) : Sound mtu s.onResend := by
  rw [CCRakNetSlidingWindow.onResend]
  split
  · refine ⟨h.mtu_eq, ?_, h.times⟩
    rw [← h.mtu_eq]
  · exact h

theorem Sound.onNAK (h : Sound mtu s) : Sound mtu s.onNAK := by
  rw [CCRakNetSlidingWindow.onNAK]
  split
  · exact ⟨h.mtu_eq, h.mtu_le, h.times⟩
  · exact h

theorem Sound.call (hmtu : 0 < mtu) (h : Sound mtu s) (c : WindowCall) : Sound mtu (s.call c) := by
  cases c with
  | onAck rtt isContinuousSend sequenceNumber =>
    obtain ⟨hcwnd, heq, hestimated, hdeviation⟩ :=
      onAck_spec (h.cwnd_pos hmtu) rtt isContinuousSend sequenceNumber
    obtain ⟨hrtt, hvar⟩ := timesSet_recordRtt h.times rtt
    refine ⟨heq.trans h.mtu_eq, le_trans h.mtu_le hcwnd, .inr ⟨?_, ?_⟩⟩
    · exact hrtt.trans_eq hestimated.symm
    · exact hvar.trans_eq hdeviation.symm
  | onNAK => exact h.onNAK
  | onResend => exact h.onResend
  | getTransmissionBandwidth unacknowledgedBytes isContinuousSend =>
    have hsame : Sound mtu { s with isContinuousSend := isContinuousSend } :=
      ⟨h.mtu_eq, h.mtu_le, h.times⟩
    rw [CCRakNetSlidingWindow.call, CCRakNetSlidingWindow.getTransmissionBandwidth]
    dsimp only
    split
    · exact hsame
    · exact hsame
  | getAndIncrementNextDatagramSequenceNumber => exact ⟨h.mtu_eq, h.mtu_le, h.times⟩

theorem Sound.run (hmtu : 0 < mtu) (calls : List WindowCall) : Sound mtu (run mtu calls) := by
  induction calls using List.reverseRecOn with
  | nil => exact .init mtu
  | append_singleton calls c ih =>
    rw [CCRakNetSlidingWindow.run, List.foldl_append]
    exact ih.call hmtu c

end CCRakNetSlidingWindow

end SLikeNet
