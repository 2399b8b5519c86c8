import SLikeNet.Library.Transition
import SLikeNet.Uint24

/-! The receiver's record of reliable message numbers: `receivedPacketsBaseIndex`
and `hasReceivedPacketQueue`, whose entries are true where a number is a hole. -/

namespace SLikeNet

structure ReceivedPackets where
  receivedPacketsBaseIndex : Uint24
  hasReceivedPacketQueue : List Bool
deriving DecidableEq

namespace ReceivedPackets

def initial : ReceivedPackets := ⟨0, []⟩

/-- Pops while the head of the queue is no hole. -/
def popReceived : Uint24 → List Bool → ReceivedPackets
  | base, false :: queue => popReceived base.succ queue
  | base, queue => ⟨base, queue⟩

/-- What the receive loop does with the number of a reliable message, and whether it
goes on with the message. -/
def receive (r : ReceivedPackets) (reliableMessageNumber : Uint24) : Bool × ReceivedPackets :=
  let holeCount := reliableMessageNumber - r.receivedPacketsBaseIndex
  let queue := r.hasReceivedPacketQueue
  if holeCount = 0 then
    (true, popReceived r.receivedPacketsBaseIndex.succ queue.tail)
  else if holeCount > Uint24.max / 2 then (false, r)
  else if holeCount.val < queue.length then
    if queue[holeCount.val]? ≠ some false then
      (true, popReceived r.receivedPacketsBaseIndex (queue.set holeCount.val false))
    else (false, r)
  else if holeCount > .ofNat 1000000 then (false, r)
  else
    (true, popReceived r.receivedPacketsBaseIndex
      (queue ++ List.replicate (holeCount.val - queue.length) true ++ [false]))

end ReceivedPackets

/-- What a queue of holes that starts at the number `base` says of the number `n`. -/
def Received (base : ℕ) (queue : List Bool) (n : ℕ) : Prop :=
  n < base ∨ base ≤ n ∧ queue[n - base]? = some false

theorem received_cons_false {base : ℕ} {queue : List Bool} {n : ℕ} :
    Received base (false :: queue) n ↔ Received (base + 1) queue n := by
  unfold Received
  rcases Nat.lt_trichotomy n base with h | rfl | h
  · simp [h, Nat.lt_succ_of_lt h]
  · simp
  · obtain ⟨d, rfl⟩ := Nat.exists_eq_add_of_lt h
    have h1 : base + d + 1 - base = d + 1 := by omega
    have h2 : base + d + 1 - (base + 1) = d := by omega
    rw [h1, h2, List.getElem?_cons_succ]
    constructor <;> rintro (hlt | ⟨-, h⟩)
    · omega
    · exact .inr ⟨by omega, h⟩
    · omega
    · exact .inr ⟨by omega, h⟩

theorem received_tail {base : ℕ} {queue : List Bool} {n : ℕ} (hhead : queue.head? ≠ some false) :
    Received (base + 1) queue.tail n ↔ n = base ∨ Received base queue n := by
  cases queue with
  | nil =>
    simp [Received]
    omega
  | cons b queue =>
    have hb : b = true := by simpa using hhead
    rw [List.tail_cons, ← received_cons_false]
    unfold Received
    rcases Nat.lt_trichotomy n base with h | rfl | h
    · simp [h]
    · simp
    · obtain ⟨d, rfl⟩ := Nat.exists_eq_add_of_lt h
      have h1 : base + d + 1 - base = d + 1 := by omega
      rw [h1, List.getElem?_cons_succ, List.getElem?_cons_succ]
      exact ⟨.inr, fun h' => h'.resolve_left (by omega)⟩

theorem received_set {base d : ℕ} {queue : List Bool} {n : ℕ} (hd : d < queue.length) :
    Received base (queue.set d false) n ↔ n = base + d ∨ Received base queue n := by
  unfold Received
  rw [List.getElem?_set]
  by_cases h : d = n - base
  · rw [if_pos h, if_pos hd]
    constructor
    · rintro (hlt | ⟨hle, -⟩)
      · exact .inr (.inl hlt)
      · exact .inl (by omega)
    · rintro (rfl | hlt | ⟨hle, -⟩)
      · exact .inr ⟨by omega, rfl⟩
      · exact .inl hlt
      · exact .inr ⟨hle, rfl⟩
  · rw [if_neg h]
    constructor
    · exact .inr
    · rintro (rfl | h')
      · omega
      · exact h'

theorem received_extend {base d : ℕ} {queue : List Bool} {n : ℕ} (hd : queue.length ≤ d) :
    Received base (queue ++ List.replicate (d - queue.length) true ++ [false]) n ↔
      n = base + d ∨ Received base queue n := by
  unfold Received
  have hlen : (queue ++ List.replicate (d - queue.length) true).length = d := by
    simp only [List.length_append, List.length_replicate]
    omega
  rcases Nat.lt_trichotomy (n - base) d with hlt | heq | hgt
  · rw [List.getElem?_append_left (by omega)]
    by_cases hq : n - base < queue.length
    · rw [List.getElem?_append_left hq]
      constructor
      · exact .inr
      · rintro (rfl | h)
        · omega
        · exact h
    · rw [List.getElem?_append_right (by omega), List.getElem?_replicate, if_pos (by omega),
        List.getElem?_eq_none (Nat.le_of_not_lt hq)]
      constructor
      · rintro (h | ⟨-, h⟩)
        · exact .inr (.inl h)
        · simp at h
      · rintro (rfl | h | ⟨-, h⟩)
        · omega
        · exact .inl h
        · cases h
  · rw [List.getElem?_append_right (by omega), hlen, heq, Nat.sub_self]
    simp only [List.getElem?_cons_zero, and_true]
    rw [List.getElem?_eq_none hd]
    constructor
    · rintro (h | h)
      · exact .inr (.inl h)
      · exact .inl (by omega)
    · rintro (rfl | h | ⟨-, h⟩)
      · exact .inr (by omega)
      · exact .inl h
      · cases h
  · rw [List.getElem?_append_right (by omega), List.getElem?_eq_none (by simp [hlen]; omega),
      List.getElem?_eq_none (by omega)]
    constructor
    · rintro (h | ⟨-, h⟩)
      · exact .inr (.inl h)
      · cases h
    · rintro (rfl | h | ⟨-, h⟩)
      · omega
      · exact .inl h
      · cases h

namespace ReceivedPackets

theorem popReceived_eq (base : ℕ) (queue : List Bool) : ∃ k,
    (popReceived (.ofNat base) queue).receivedPacketsBaseIndex = .ofNat (base + k) ∧
    (popReceived (.ofNat base) queue).hasReceivedPacketQueue.length + k = queue.length ∧
    (popReceived (.ofNat base) queue).hasReceivedPacketQueue.head? ≠ some false ∧
    ∀ n, Received (base + k) (popReceived (.ofNat base) queue).hasReceivedPacketQueue n ↔
      Received base queue n := by
  induction queue generalizing base with
  | nil => exact ⟨0, rfl, rfl, by simp [popReceived], fun n => Iff.rfl⟩
  | cons b queue ih =>
    cases b with
    | true => exact ⟨0, rfl, rfl, by simp [popReceived], fun n => Iff.rfl⟩
    | false =>
      obtain ⟨k, h1, hk, h2, h3⟩ := ih (base + 1)
      rw [popReceived, Uint24.succ_ofNat]
      refine ⟨k + 1, ?_, ?_, h2, fun n => ?_⟩
      · rw [h1]
        congr 1
        omega
      · rw [List.length_cons]
        omega
      · rw [received_cons_false, ← h3 n, Nat.add_assoc, Nat.add_comm k 1]

theorem holeCount_late {base n : ℕ} (hlt : n < base) (hle : base ≤ n + 2 ^ 23) :
    Uint24.ofNat n - .ofNat base > Uint24.max / 2 := by
  have hhalf : (Uint24.max / 2).val = 2 ^ 23 - 1 := rfl
  rw [gt_iff_lt, Uint24.lt_iff, hhalf, Uint24.val_sub, Uint24.val_ofNat, Uint24.val_ofNat]
  omega

theorem receive_eq {r : ReceivedPackets} {base n : ℕ}
    (hbase : r.receivedPacketsBaseIndex = .ofNat base)
    (hlen : r.hasReceivedPacketQueue.length ≤ 1000001)
    (hhead : r.hasReceivedPacketQueue.head? ≠ some false)
    (hlate : base ≤ n + 2 ^ 23) (hearly : n ≤ base + 1000000) :
    ((r.receive (.ofNat n)).1 = true ↔ ¬ Received base r.hasReceivedPacketQueue n) ∧
    ∃ k ≤ 1000002, (r.receive (.ofNat n)).2.receivedPacketsBaseIndex = .ofNat (base + k) ∧
      (r.receive (.ofNat n)).2.hasReceivedPacketQueue.length ≤ 1000001 ∧
      (r.receive (.ofNat n)).2.hasReceivedPacketQueue.head? ≠ some false ∧
      ∀ m, Received (base + k) (r.receive (.ofNat n)).2.hasReceivedPacketQueue m ↔
        m = n ∨ Received base r.hasReceivedPacketQueue m := by
  obtain ⟨b, queue⟩ := r
  subst hbase
  dsimp only at hlen hhead
  have hval0 : (0 : Uint24).val = 0 := rfl
  have hhalf : (Uint24.max / 2).val = 2 ^ 23 - 1 := rfl
  rcases Nat.lt_or_ge n base with hlt | hge
  · -- the number is late: it was received, and its hole count lies in the upper half
    have hbig := holeCount_late hlt hlate
    have hne : Uint24.ofNat n - .ofNat base ≠ 0 := by
      intro he
      rw [he, gt_iff_lt, Uint24.lt_iff, hval0] at hbig
      omega
    have hrec : Received base queue n := .inl hlt
    simp only [receive, if_neg hne, if_pos hbig]
    refine ⟨by simp [hrec], 0, by omega, rfl, hlen, hhead, fun m => ?_⟩
    exact ⟨.inr, fun h => h.elim (fun he => he ▸ hrec) id⟩
  · obtain ⟨d, rfl⟩ := Nat.exists_eq_add_of_le hge
    have hd : d ≤ 1000000 := by omega
    have hval : (Uint24.ofNat (base + d) - .ofNat base).val = d := by
      rw [Uint24.val_ofNat_sub_ofNat (by omega) (by omega)]
      omega
    have hiff : Received base queue (base + d) ↔ queue[d]? = some false := by
      simp [Received]
    by_cases h0 : d = 0
    · subst h0
      have he : Uint24.ofNat (base + 0) - .ofNat base = 0 := Uint24.ext hval
      have hnot : ¬ Received base queue (base + 0) := by
        rw [hiff, ← List.head?_eq_getElem?]
        exact hhead
      obtain ⟨k, h1, h2, h3, h4⟩ := popReceived_eq (base + 1) queue.tail
      simp only [receive, if_pos he, Uint24.succ_ofNat]
      rw [List.length_tail] at h2
      refine ⟨iff_of_true trivial hnot, k + 1, by omega, ?_, by omega, h3, fun m => ?_⟩
      · rw [h1]
        congr 1
        omega
      · rw [show base + (k + 1) = base + 1 + k by omega, h4, received_tail hhead]
        simp
    · have hne : Uint24.ofNat (base + d) - .ofNat base ≠ 0 := fun he => by
        rw [he, hval0] at hval
        omega
      have hsmall : ¬ Uint24.ofNat (base + d) - .ofNat base > Uint24.max / 2 := by
        rw [gt_iff_lt, Uint24.lt_iff, hhalf, hval]
        omega
      simp only [receive, if_neg hne, if_neg hsmall, hval]
      by_cases hin : d < queue.length
      · rw [if_pos hin]
        by_cases hdup : queue[d]? = some false
        · have hrec := hiff.mpr hdup
          rw [if_neg (by simpa using hdup)]
          refine ⟨by simp [hrec], 0, by omega, rfl, hlen, hhead, fun m => ?_⟩
          exact ⟨.inr, fun h => h.elim (fun he => he ▸ hrec) id⟩
        · have hnot := mt hiff.mp hdup
          obtain ⟨k, h1, h2, h3, h4⟩ := popReceived_eq base (queue.set d false)
          rw [if_pos hdup]
          rw [List.length_set] at h2
          refine ⟨by simp [hnot], k, by omega, h1, by dsimp only; omega, h3, fun m => ?_⟩
          rw [h4, received_set hin]
      · have hge' : queue.length ≤ d := Nat.le_of_not_lt hin
        have hok : ¬ Uint24.ofNat (base + d) - .ofNat base > .ofNat 1000000 := by
          rw [gt_iff_lt, Uint24.lt_iff, hval, Uint24.val_ofNat_of_lt (by omega)]
          omega
        have hnot : ¬ Received base queue (base + d) := by
          rw [hiff, List.getElem?_eq_none hge']
          simp
        obtain ⟨k, h1, h2, h3, h4⟩ := popReceived_eq base
          (queue ++ List.replicate (d - queue.length) true ++ [false])
        rw [if_neg hin, if_neg hok]
        simp only [List.length_append, List.length_replicate, List.length_cons,
          List.length_nil] at h2
        refine ⟨by simp [hnot], k, by omega, h1, by dsimp only; omega, h3, fun m => ?_⟩
        rw [h4, received_extend hge']

end ReceivedPackets

/-- The receiver with the unbounded value of its base index and the numbers it has
accepted. -/
structure Reception where
  received : ReceivedPackets
  base : ℕ
  accepted : List ℕ

namespace Reception

def initial : Reception := ⟨ReceivedPackets.initial, 0, []⟩

/-- The message with the unbounded number `n` arrives. -/
def arrive (s : Reception) (n : ℕ) : Reception :=
  let r := s.received.receive (.ofNat n)
  { received := r.2
    base := s.base + (r.2.receivedPacketsBaseIndex - s.received.receivedPacketsBaseIndex).val
    accepted := if r.1 then n :: s.accepted else s.accepted }

/-- The number is at most half a range late and at most 1000000 early. -/
def InWindow (s : Reception) (n : ℕ) : Prop := s.base ≤ n + 2 ^ 23 ∧ n ≤ s.base + 1000000

instance (s : Reception) (n : ℕ) : Decidable (InWindow s n) :=
  inferInstanceAs (Decidable (_ ∧ _))

/-- The receiver accepts the number exactly if it has not before. -/
def AcceptsOnce (s : Reception) (n : ℕ) : Prop :=
  (s.received.receive (.ofNat n)).1 = true ↔ n ∉ s.accepted

/-- The base and the queue represent the accepted numbers. -/
structure Represents (s : Reception) : Prop where
  base_eq : s.received.receivedPacketsBaseIndex = .ofNat s.base
  accepted_iff : ∀ n, n ∈ s.accepted ↔
    n < s.base ∨ ∃ i, n = s.base + i ∧ s.received.hasReceivedPacketQueue[i]? = some false
  head_hole : s.received.hasReceivedPacketQueue = [] ∨
    s.received.hasReceivedPacketQueue.head? = some true

/-- The representation with the bound that the window puts on the queue. -/
structure Inv (s : Reception) : Prop where
  base_eq : s.received.receivedPacketsBaseIndex = .ofNat s.base
  length_le : s.received.hasReceivedPacketQueue.length ≤ 1000001
  head_ne : s.received.hasReceivedPacketQueue.head? ≠ some false
  accepted_iff : ∀ n, n ∈ s.accepted ↔ Received s.base s.received.hasReceivedPacketQueue n

theorem inv_initial : Inv initial where
  base_eq := rfl
  length_le := by decide
  head_ne := by decide
  accepted_iff n := by simp [initial, ReceivedPackets.initial, Received]

theorem Inv.acceptsOnce {s : Reception} {n : ℕ} (h : Inv s) (hw : InWindow s n) :
    AcceptsOnce s n := by
  rw [AcceptsOnce, h.accepted_iff]
  exact (ReceivedPackets.receive_eq h.base_eq h.length_le h.head_ne hw.1 hw.2).1

theorem Inv.arrive {s : Reception} {n : ℕ} (h : Inv s) (hw : InWindow s n) :
    Inv (s.arrive n) := by
  obtain ⟨hok, k, hk, hb, hl, hh, hr⟩ :=
    ReceivedPackets.receive_eq h.base_eq h.length_le h.head_ne hw.1 hw.2
  have hbase : (s.arrive n).base = s.base + k := by
    simp only [Reception.arrive, hb, h.base_eq]
    rw [Uint24.val_ofNat_sub_ofNat (by omega) (by omega)]
    omega
  refine ⟨by rw [hbase]; exact hb, hl, hh, fun m => ?_⟩
  rw [hbase]
  refine Iff.trans ?_ (hr m).symm
  simp only [Reception.arrive]
  split
  · rw [List.mem_cons, h.accepted_iff]
  · rename_i hno
    rw [hok, not_not] at hno
    rw [h.accepted_iff]
    exact ⟨.inr, fun hm => hm.elim (fun he => he ▸ hno) id⟩

theorem Inv.represents {s : Reception} (h : Inv s) : Represents s where
  base_eq := h.base_eq
  accepted_iff n := by
    rw [h.accepted_iff, Received]
    refine or_congr_right ⟨fun hn => ⟨n - s.base, by omega, hn.2⟩, ?_⟩
    rintro ⟨i, rfl, hi⟩
    exact ⟨by omega, by simpa using hi⟩
  head_hole := by
    have hh := h.head_ne
    cases hq : s.received.hasReceivedPacketQueue with
    | nil => exact .inl rfl
    | cons b queue =>
      rw [hq] at hh
      exact .inr (by simpa using hh)

/-- Reliable messages are accepted at most once and never wrongly refused, and after
every step the base and the queue represent what has been accepted. -/
theorem reliable_messages_accepted_once {numbers : List ℕ}
    (hwindow : Transition.Along arrive InWindow initial numbers) :
    Transition.Along arrive AcceptsOnce initial numbers ∧
      ∀ pre post, numbers = pre ++ post → Represents (pre.foldl arrive initial) := by
  have hinv := Transition.run_prefix (fun _ s => Inv s) inv_initial fun pre n post heq h =>
      h.arrive (hwindow pre n post heq)
  exact ⟨fun pre n post heq => (hinv pre (n :: post) heq).acceptsOnce (hwindow pre n post heq),
    fun pre post heq => (hinv pre post heq).represents⟩

/-- A gap, a late number, a duplicate and the number that fills the gap. -/
theorem numbers_accepted_once :
    Transition.Along arrive AcceptsOnce initial [2, 0, 2, 1] ∧
      ∀ pre post, [2, 0, 2, 1] = pre ++ post → Represents (pre.foldl arrive initial) :=
  reliable_messages_accepted_once <|
    Transition.along_cons (by decide) <| Transition.along_cons (by decide) <|
    Transition.along_cons (by decide) <| Transition.along_cons (by decide) Transition.along_nil

end Reception

end SLikeNet
