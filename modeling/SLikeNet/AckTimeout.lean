import SLikeNet.AckHandling

/-! `AckTimeout` against true time. The time of the last datagram and the time of the update
are kept in 32 bits, but their differences are taken in 64, so that the clock and the
differences wrap at different widths. -/

namespace SLikeNet.ReliabilityLayer

/-! ### The two differences -/

/-- An update a little before the last datagram is tolerated; an update that is far before it
counts as a timeout, whatever `timeoutTime` is. -/
theorem ackTimeout_iff {s : ReliabilityLayer} {curTime : ℕ}
    (hlast : s.timeLastDatagramArrived < 2 ^ 32) (hcur : curTime < 2 ^ 32)
    (htimeout : s.timeoutTime < 2 ^ 32) :
    s.ackTimeout curTime = true ↔
      (s.timeLastDatagramArrived ≤ curTime ∧
        s.timeoutTime < curTime - s.timeLastDatagramArrived) ∨
      curTime + 10000 < s.timeLastDatagramArrived := by
  simp only [ackTimeout, Bool.and_eq_true, decide_eq_true_eq]
  rcases Nat.lt_or_ge curTime s.timeLastDatagramArrived with hbefore | hafter
  · have hback : (2 ^ 64 - curTime + s.timeLastDatagramArrived) % 2 ^ 64 =
        s.timeLastDatagramArrived - curTime := by omega
    have hforth : s.timeoutTime <
        (2 ^ 64 - s.timeLastDatagramArrived + curTime) % 2 ^ 64 := by omega
    rw [hback]
    omega
  · have hforth : (2 ^ 64 - s.timeLastDatagramArrived + curTime) % 2 ^ 64 =
        curTime - s.timeLastDatagramArrived := by omega
    rw [hforth]
    omega

/-! ### True times -/

theorem ackTimeout_datagramArrived {s : ReliabilityLayer} {last now : ℕ} (hle : last ≤ now)
    (hnear : now - last < 2 ^ 31) (htimeout : s.timeoutTime < 2 ^ 32) :
    (s.datagramArrived last).ackTimeout (now % 2 ^ 32) = true ↔
      now % 2 ^ 32 < last % 2 ^ 32 ∨ s.timeoutTime < now - last := by
  have hlast : last % 2 ^ 32 < 2 ^ 32 := Nat.mod_lt _ (by decide)
  have hcur : now % 2 ^ 32 < 2 ^ 32 := Nat.mod_lt _ (by decide)
  have hiff := ackTimeout_iff (s := s.datagramArrived last) hlast hcur htimeout
  refine hiff.trans ?_
  change (last % 2 ^ 32 ≤ now % 2 ^ 32 ∧ s.timeoutTime < now % 2 ^ 32 - last % 2 ^ 32) ∨
    now % 2 ^ 32 + 10000 < last % 2 ^ 32 ↔ _
  rcases Nat.lt_or_ge (now % 2 ^ 32) (last % 2 ^ 32) with hwrap | hsame
  · have hfar : now % 2 ^ 32 + 10000 < last % 2 ^ 32 := by omega
    exact iff_of_true (Or.inr hfar) (Or.inl hwrap)
  · have hsilence : now % 2 ^ 32 - last % 2 ^ 32 = now - last := by omega
    rw [hsilence]
    omega

/-- The timeout is exact as long as the clock has not wrapped since the datagram, and after a
wrap only where the silence is real. -/
theorem ackTimeout_exact (s : ReliabilityLayer) {last now : ℕ} (hle : last ≤ now)
    (hnear : now - last < 2 ^ 31) (htimeout : s.timeoutTime < 2 ^ 32) :
    ((s.datagramArrived last).ackTimeout (now % 2 ^ 32) = true ↔ s.timeoutTime < now - last) ↔
      (last % 2 ^ 32 ≤ now % 2 ^ 32 ∨ s.timeoutTime < now - last) := by
  rw [ackTimeout_datagramArrived hle hnear htimeout]
  rcases Nat.lt_or_ge (now % 2 ^ 32) (last % 2 ^ 32) with hwrap | hsame
  · simp only [hwrap, true_or, true_iff, Nat.not_le.mpr hwrap, false_or]
  · simp only [hsame, Nat.not_lt.mpr hsame, false_or, true_or]

/-- The millisecond clock wraps right after a datagram has arrived. -/
theorem exact_within_one_wrap :
    ((initial ⟨576, by decide, by decide⟩ 0 0 10000).datagramArrived 5000).ackTimeout
        (15001 % 2 ^ 32) = true ↔ 10000 < 15001 - 5000 :=
  (ackTimeout_exact (initial ⟨576, by decide, by decide⟩ 0 0 10000)
    (show 5000 ≤ 15001 by decide) (by decide) (by decide)).mpr (Or.inl (by decide))

theorem timeout_at_wrap :
    ¬ ∀ (s : ReliabilityLayer) (last now : ℕ), last ≤ now → now - last < 2 ^ 31 →
      s.timeoutTime < 2 ^ 32 →
        ((s.datagramArrived last).ackTimeout (now % 2 ^ 32) = true ↔
          s.timeoutTime < now - last) := by
  intro hclaim
  have hiff := hclaim (initial ⟨576, by decide, by decide⟩ 0 0 10000) 4294967295 4294967296
    (by decide) (by decide) (by decide)
  exact absurd (hiff.mp (by decide)) (by decide)

end SLikeNet.ReliabilityLayer
