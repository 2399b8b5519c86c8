import Mathlib.Data.Int.ModEq
import SLikeNet.Library.RecentRing
import SLikeNet.SentMessages

/-! The estimate of the other clock: what the ring of pings holds, which entry is picked from it,
and how far off an entry can be. -/

namespace SLikeNet

open RecentRing

/-! ### The entry that is picked -/

namespace RakPeer

/-- The loop picks an entry of least ping among the counters it goes through, or keeps what it
has. -/
theorem clockDifferentialFrom_spec
    {pings : Fin pingTimesArraySize → PingAndClockDifferential}
    (counters : List (Fin pingTimesArraySize)) (lowest : UInt16) (differential : UInt64)
    (hwritten : ∀ c ∈ counters, (pings c).pingTime ≠ 65535) :
    (∀ c ∈ counters, lowest ≤ (pings c).pingTime) ∧
        clockDifferentialFrom pings counters lowest differential = differential ∨
      ∃ c ∈ counters, (pings c).pingTime < lowest ∧
        (∀ c' ∈ counters, (pings c).pingTime ≤ (pings c').pingTime) ∧
        clockDifferentialFrom pings counters lowest differential = (pings c).clockDifferential := by
  induction counters generalizing lowest differential with
  | nil => exact Or.inl ⟨fun c hc => absurd hc List.not_mem_nil, rfl⟩
  | cons c counters ih =>
    have hrest := fun c' hc' => hwritten c' (List.mem_cons_of_mem c hc')
    rw [clockDifferentialFrom, if_neg (hwritten c List.mem_cons_self)]
    by_cases hlower : (pings c).pingTime < lowest
    · rw [if_pos hlower]
      right
      rcases ih (pings c).pingTime (pings c).clockDifferential hrest with
        ⟨hleast, hresult⟩ | ⟨d, hd, hbelow, hleast, hresult⟩
      · exact ⟨c, List.mem_cons_self, hlower,
          List.forall_mem_cons.mpr ⟨UInt16.le_refl _, hleast⟩, hresult⟩
      · exact ⟨d, List.mem_cons_of_mem c hd, UInt16.lt_trans hbelow hlower,
          List.forall_mem_cons.mpr ⟨UInt16.le_of_lt hbelow, hleast⟩, hresult⟩
    · have hkept : lowest ≤ (pings c).pingTime := UInt16.not_lt.mp hlower
      rw [if_neg hlower]
      rcases ih lowest differential hrest with ⟨hleast, hresult⟩ | ⟨d, hd, hbelow, hleast, hresult⟩
      · exact Or.inl ⟨List.forall_mem_cons.mpr ⟨hkept, hleast⟩, hresult⟩
      · exact Or.inr ⟨d, List.mem_cons_of_mem c hd, hbelow,
          List.forall_mem_cons.mpr ⟨UInt16.le_of_lt (UInt16.lt_of_lt_of_le hbelow hkept), hleast⟩,
          hresult⟩

theorem clockDifferentialFrom_append
    {pings : Fin pingTimesArraySize → PingAndClockDifferential}
    (written rest : List (Fin pingTimesArraySize)) (lowest : UInt16) (differential : UInt64)
    (hrest : ∀ c ∈ rest.head?, (pings c).pingTime = 65535) :
    clockDifferentialFrom pings (written ++ rest) lowest differential =
      clockDifferentialFrom pings written lowest differential := by
  induction written generalizing lowest differential with
  | nil =>
    cases rest with
    | nil => rfl
    | cons c rest =>
      show clockDifferentialFrom pings (c :: rest) lowest differential = differential
      rw [clockDifferentialFrom, if_pos (hrest c rfl)]
  | cons c written ih =>
    show clockDifferentialFrom pings (c :: (written ++ rest)) lowest differential = _
    rw [clockDifferentialFrom, clockDifferentialFrom, ih, ih]

theorem getClockDifferentialInt_spec {r : RemoteSystemStruct}
    {history : List PingAndClockDifferential}
    (h : Holds r.pingAndClockDifferential unwritten r.pingAndClockDifferentialWriteIndex history)
    (hne : history ≠ [])
    (hshort : ∀ e ∈ recent pingTimesArraySize history, e.pingTime < 65535) :
    ∃ e ∈ recent pingTimesArraySize history,
      getClockDifferentialInt r = e.clockDifferential ∧
        ∀ e' ∈ recent pingTimesArraySize history, e.pingTime ≤ e'.pingTime := by
  have hsplit : List.finRange pingTimesArraySize =
      (List.finRange pingTimesArraySize).take history.length ++
        (List.finRange pingTimesArraySize).drop history.length := (List.take_append_drop _ _).symm
  have hmem : ∀ c, c ∈ (List.finRange pingTimesArraySize).take history.length ↔
      c.val < history.length := by
    intro c
    rw [List.mem_take_iff_getElem]
    constructor
    · rintro ⟨i, hi, rfl⟩
      rw [List.getElem_finRange]
      exact Nat.lt_of_lt_of_le hi (Nat.min_le_left _ _)
    · intro hc
      exact ⟨c.val, by rw [List.length_finRange]; omega, by rw [List.getElem_finRange]; rfl⟩
  have hwritten : ∀ c ∈ (List.finRange pingTimesArraySize).take history.length,
      (r.pingAndClockDifferential c).pingTime < 65535 :=
    fun c hc => hshort _ (h.cell_mem ((hmem c).mp hc))
  have hrest : ∀ c ∈ ((List.finRange pingTimesArraySize).drop history.length).head?,
      (r.pingAndClockDifferential c).pingTime = 65535 := by
    intro c hc
    rw [List.head?_drop] at hc
    obtain ⟨hlength, rfl⟩ := List.getElem?_eq_some_iff.mp hc
    rw [List.getElem_finRange, h.unwritten _ (Nat.le_refl _)]
    rfl
  unfold getClockDifferentialInt
  rw [hsplit, clockDifferentialFrom_append _ _ _ _ hrest]
  rcases clockDifferentialFrom_spec _ 65535 0 fun c hc => UInt16.ne_of_lt (hwritten c hc) with
    ⟨hleast, -⟩ | ⟨c, hc, -, hleast, hresult⟩
  · have hn : 0 < history.length := List.length_pos_of_ne_nil hne
    have hfirst := (hmem ⟨0, by decide⟩).mpr hn
    exact absurd (hwritten _ hfirst) (UInt16.not_lt.mpr (hleast _ hfirst))
  · refine ⟨_, h.cell_mem ((hmem c).mp hc), hresult, fun e' he' => ?_⟩
    obtain ⟨j, hj, rfl⟩ := h.mem_cell he'
    exact hleast j ((hmem j).mpr hj)

/-! ### How far off an entry is -/

/-- The estimate is at most half the round trip and 1 away from the difference of the clocks,
up to a multiple of `2 ^ 64`. -/
def NearDifferential (estimate : UInt64) (d : ℤ) (roundTrip : ℕ) : Prop :=
  ∃ e : ℤ, 2 * e.natAbs ≤ roundTrip + 2 ∧ (estimate.toNat : ℤ) ≡ d + e [ZMOD 2 ^ 64]

theorem NearDifferential.mono {estimate : UInt64} {d : ℤ} {roundTrip roundTrip' : ℕ}
    (h : NearDifferential estimate d roundTrip) (hle : roundTrip ≤ roundTrip') :
    NearDifferential estimate d roundTrip' := by
  obtain ⟨e, hnear, hmod⟩ := h
  exact ⟨e, by omega, hmod⟩

/-- A ping is sent at `p`, answered at `q` and back at `t`, by a time that this clock is `here`
ahead of and the other one `there`. This clock does not wrap in between; the other one may. -/
theorem pingOf_near {p q t here there : ℕ} (hpq : p ≤ q) (hqt : q ≤ t)
    (hwrap : (p + here) / 2 ^ 64 = (t + here) / 2 ^ 64) (hshort : t - p < 65535) :
    (pingOf (UInt64.ofNat (p + here)) (UInt64.ofNat (q + there))
        (UInt64.ofNat (t + here))).pingTime.toNat = t - p ∧
      NearDifferential (pingOf (UInt64.ofNat (p + here)) (UInt64.ofNat (q + there))
        (UInt64.ofNat (t + here))).clockDifferential (there - here) (t - p) := by
  have hp : (UInt64.ofNat (p + here)).toNat = (p + here) % 2 ^ 64 := UInt64.toNat_ofNat'
  have hq : (UInt64.ofNat (q + there)).toNat = (q + there) % 2 ^ 64 := UInt64.toNat_ofNat'
  have ht : (UInt64.ofNat (t + here)).toNat = (t + here) % 2 ^ 64 := UInt64.toNat_ofNat'
  constructor
  · have hping : (if UInt64.ofNat (t + here) > UInt64.ofNat (p + here) then
        UInt64.ofNat (t + here) - UInt64.ofNat (p + here) else 0).toNat = t - p := by
      split
      · rename_i hlater
        rw [UInt64.toNat_sub_of_le _ _ (UInt64.le_of_lt hlater), ht, hp]
        omega
      · rename_i hlater
        have hle := UInt64.le_iff_toNat_le.mp (UInt64.not_lt.mp hlater)
        rw [ht, hp] at hle
        rw [UInt64.toNat_zero]
        omega
    show UInt16.toNat (UInt64.toUInt16 _) = t - p
    rw [UInt64.toNat_toUInt16, hping, Nat.mod_eq_of_lt (by omega)]
  · -- Each half is rounded down on its own.
    refine ⟨q + here - (t + here) / 2 - (p + here) / 2, by omega, ?_⟩
    show ((UInt64.ofNat (q + there) - (UInt64.ofNat (t + here) / 2 +
      UInt64.ofNat (p + here) / 2)).toNat : ℤ) ≡ _ [ZMOD 2 ^ 64]
    have htwo : UInt64.toNat 2 = 2 := rfl
    rw [UInt64.toNat_sub, UInt64.toNat_add, UInt64.toNat_div, UInt64.toNat_div, hp, hq, ht, htwo]
    show _ % _ = _ % _
    omega

end RakPeer

end SLikeNet
