import SLikeNet.SendQueue
import Mathlib.Data.List.ProdSigma
import Mathlib.Data.List.TakeWhile

/-! No message starves in the send queue: as long as the weights do not wrap, a message that
waits is overtaken by a bounded number of later ones. -/

namespace SLikeNet

open ReliabilityLayer (initHeapWeights)

namespace SendQueue

/-- How many of the messages pushed after `s` have been popped in `t` before `n`. -/
def overtaking (s : SendQueue) (n : QueueNode) (t : SendQueue) : ℕ :=
  ((t.popped.takeWhile fun m => decide (m ≠ n)).filter fun m =>
    decide (s.pushed ≤ m.data.number)).length

variable {s t : SendQueue} {n : QueueNode}

/-- What tells the later messages apart: two of one level have different weights. -/
def place (m : QueueNode) : PacketPriority × ℕ := (m.data.priority, m.weight)

def later (s t : SendQueue) : List QueueNode :=
  (t.popped ++ t.queued).filter fun m => decide (s.pushed ≤ m.data.number)

/-- While `n` waits, the counters are not reset, so that the weights of a level keep growing. -/
structure Waiting (s : SendQueue) (n : QueueNode) (t : SendQueue) : Prop where
  queued : n ∈ t.queued
  distinct : ((later s t).map place).Nodup
  weight_lt : ∀ m ∈ later s t,
    m.weight < t.outgoingPacketBufferNextWeights m.data.priority
  popped_le : ∀ m ∈ t.popped, s.pushed ≤ m.data.number → m.weight ≤ n.weight

theorem Waiting.length_le (h : Waiting s n t) :
    (t.popped.filter fun m => decide (s.pushed ≤ m.data.number)).length ≤ 4 * (n.weight + 1) := by
  have hsub : ((t.popped.filter fun m => decide (s.pushed ≤ m.data.number)).map place).Sublist
      ((later s t).map place) := by
    apply List.Sublist.map
    exact (List.sublist_append_left _ _).filter _
  have hmem : (t.popped.filter fun m => decide (s.pushed ≤ m.data.number)).map place ⊆
      [PacketPriority.immediate, .high, .medium, .low] ×ˢ List.range (n.weight + 1) := by
    intro q hq
    obtain ⟨m, hm, rfl⟩ := List.mem_map.mp hq
    obtain ⟨hm, hlater⟩ := List.mem_filter.mp hm
    have hle := h.popped_le m hm (of_decide_eq_true hlater)
    apply List.mem_product.mpr
    refine ⟨?_, List.mem_range.mpr (Nat.lt_succ_of_le hle)⟩
    show m.data.priority ∈ _
    cases m.data.priority <;> decide
  have hlen := (List.subperm_of_subset (h.distinct.sublist hsub) hmem).length_le
  rwa [List.length_map, List.length_product, List.length_range] at hlen

theorem overtaking_le (s : SendQueue) (n : QueueNode) (t : SendQueue) :
    overtaking s n t ≤
      (t.popped.filter fun m => decide (s.pushed ≤ m.data.number)).length :=
  ((List.takeWhile_sublist _).filter _).length_le

theorem overtaking_frozen {m : QueueNode} {u : SendQueue} (hn : n ∈ t.popped)
    (hu : u.popped = t.popped ++ [m]) : overtaking s n u = overtaking s n t := by
  unfold overtaking
  rw [hu, List.takeWhile_append, if_neg]
  intro hlen
  rw [← (List.takeWhile_sublist _).eq_of_length hlen] at hn
  have hne := List.mem_takeWhile_imp hn
  simp at hne

theorem later_perm {u : SendQueue} {ms : List QueueNode}
    (hperm : (u.popped ++ u.queued).Perm (ms ++ (t.popped ++ t.queued))) :
    (later s u).Perm ((ms.filter fun m => decide (s.pushed ≤ m.data.number)) ++ later s t) := by
  rw [later, later, ← List.filter_append]
  exact hperm.filter _

theorem Waiting.pushMessage
    {push : Heap ℕ QueuedMessage false → ℕ → QueuedMessage → Heap ℕ QueuedMessage false}
    (hpush : ∀ h weight data, (push h weight data).heap.Perm (⟨weight, data⟩ :: h.heap))
    (h : Waiting s n t) (hsound : t.Sound) (hroom : t.HasRoom 1) (p : PacketPriority) :
    Waiting s n (t.pushMessage push p) := by
  obtain ⟨r, hr⟩ : ∃ r, t.queued.head? = some r :=
    Option.isSome_iff_exists.mp (List.isSome_head?.mpr (List.ne_nil_of_mem h.queued))
  obtain ⟨w, hw, hle, -⟩ := getNextWeight_cons hsound hroom hr p
  have hperm : (t.pushMessage push p).queued.Perm (⟨w, ⟨p, t.pushed⟩⟩ :: t.queued) := by
    have hperm := hpush t.outgoingPacketBuffer (t.getNextWeight p).1 ⟨p, t.pushed⟩
    rw [hw] at hperm
    rw [SendQueue.pushMessage, hw]
    exact hperm
  have hnext : (t.pushMessage push p).outgoingPacketBufferNextWeights =
      Function.update t.outgoingPacketBufferNextWeights p (w + p.increment) :=
    congrArg Prod.snd hw
  let x : QueueNode := ⟨w, ⟨p, t.pushed⟩⟩
  have hmem : ∀ m ∈ later s (t.pushMessage push p), m = x ∨ m ∈ later s t := by
    intro m hm
    obtain ⟨hm, hlater⟩ := List.mem_filter.mp hm
    rcases List.mem_append.mp hm with hm | hm
    · exact .inr (List.mem_filter.mpr ⟨List.mem_append_left _ hm, hlater⟩)
    · rcases List.mem_cons.mp (hperm.mem_iff.mp hm) with hm | hm
      · exact .inl hm
      · exact .inr (List.mem_filter.mpr ⟨List.mem_append_right _ hm, hlater⟩)
  have hfresh : place x ∉ (later s t).map place := by
    intro hx
    obtain ⟨m, hm, heq⟩ := List.mem_map.mp hx
    have hlt := h.weight_lt m hm
    have hpriority : m.data.priority = p := congrArg Prod.fst heq
    have hweight : m.weight = w := congrArg Prod.snd heq
    rw [hpriority] at hlt
    omega
  have hlater : (later s (t.pushMessage push p)).Perm
      ([x].filter (fun m => decide (s.pushed ≤ m.data.number)) ++ later s t) :=
    later_perm ((hperm.append_left _).trans List.perm_middle)
  constructor
  · exact hperm.mem_iff.mpr (List.mem_cons_of_mem _ h.queued)
  · apply (hlater.map place).nodup_iff.mpr
    rw [List.filter_singleton]
    cases decide (s.pushed ≤ x.data.number) with
    | true => exact List.nodup_cons.mpr ⟨hfresh, h.distinct⟩
    | false => exact h.distinct
  · intro m hm
    rw [hnext]
    by_cases hp : m.data.priority = p
    · rw [hp, Function.update_self]
      have hpos := p.level_bounds
      rcases hmem m hm with rfl | hm
      · show w < w + p.increment
        omega
      · have hlt := h.weight_lt m hm
        rw [hp] at hlt
        omega
    · rw [Function.update_of_ne hp]
      rcases hmem m hm with rfl | hm
      · exact absurd rfl hp
      · exact h.weight_lt m hm
  · exact h.popped_le

theorem Waiting.pop (h : Waiting s n t) (hwell : t.WellWeighted) {r : QueueNode}
    (hr : t.queued.head? = some r) (hne : r ≠ n) : Waiting s n t.pop := by
  obtain ⟨hperm, hpopped, hnext, -, -⟩ := pop_spec hr
  have hlater : (later s t.pop).Perm (later s t) := by
    apply List.Perm.filter
    rw [hpopped, List.append_assoc]
    exact (hperm.append_left _).symm
  constructor
  · rcases List.mem_cons.mp (hperm.mem_iff.mp h.queued) with heq | hn
    · exact absurd heq.symm hne
    · exact hn
  · exact (hlater.map place).nodup_iff.mpr h.distinct
  · intro m hm
    rw [hnext]
    exact h.weight_lt m (hlater.mem_iff.mp hm)
  · intro m hm hnumber
    rw [hpopped] at hm
    rcases List.mem_append.mp hm with hm | hm
    · exact h.popped_le m hm hnumber
    · rw [List.mem_singleton.mp hm]
      exact before_eq_false.mp (hwell.ordered.head_le hr h.queued)

/-- `n` waits, or it has been popped and the count of those before it is final. -/
def Bounded (s : SendQueue) (n : QueueNode) (t : SendQueue) : Prop :=
  Waiting s n t ∨ n ∈ t.popped ∧ overtaking s n t ≤ 4 * (n.weight + 1)

theorem bounded_kept (s : SendQueue) (n : QueueNode) : Kept (fun _ => True) (Bounded s n) where
  push push hpush t p hsound hroom h := by
    rcases h with hwaiting | hpopped
    · exact .inl (hwaiting.pushMessage hpush hsound hroom p)
    · exact .inr hpopped
  startSeries t h := by
    rcases h with hwaiting | hpopped
    · exact .inl ⟨hwaiting.queued, hwaiting.distinct, hwaiting.weight_lt, hwaiting.popped_le⟩
    · exact .inr hpopped
  pop t r hwell hr _ h := by
    obtain ⟨-, hpopped, -, -, -⟩ := pop_spec hr
    rcases h with hwaiting | ⟨hn, hle⟩
    · by_cases hne : r = n
      · have hcount : overtaking s n t.pop ≤ overtaking s n t := by
          unfold overtaking
          rw [hpopped, hne, List.takeWhile_append]
          split
          · rename_i hlen
            rw [(List.takeWhile_sublist _).eq_of_length hlen]
            simp
          · exact Nat.le_refl _
        refine .inr ⟨?_, ?_⟩
        · rw [hpopped, hne]
          exact List.mem_append_right _ (List.mem_singleton_self n)
        · exact Nat.le_trans hcount (Nat.le_trans (overtaking_le s n t) hwaiting.length_le)
      · exact .inl (hwaiting.pop hwell hr hne)
    · refine .inr ⟨?_, ?_⟩
      · rw [hpopped]
        exact List.mem_append_left _ hn
      · rw [overtaking_frozen hn hpopped]
        exact hle

/-- In every continuation whose weights do not wrap, the number of later messages that are
popped before a queued one is bounded by what the state says of it. -/
theorem no_starvation {before : List QueueInput}
    (hbefore : Transition.Along step (Fits fun _ => True) initial before)
    (hn : n ∈ (before.foldl step initial).queued) :
    ∃ bound, ∀ after,
      Transition.Along step (Fits fun _ => True) (before.foldl step initial) after →
        overtaking (before.foldl step initial) n
          (after.foldl step (before.foldl step initial)) ≤ bound := by
  obtain ⟨hwell, hcounted⟩ :=
    run_induction (counted_kept _) hbefore initial_wellWeighted initial_counted
  generalize before.foldl step initial = s at *
  refine ⟨4 * (n.weight + 1), ?_⟩
  intro after hafter
  have hnone : later s s = [] := by
    apply List.filter_eq_nil_iff.mpr
    intro m hm
    have hlt : m.data.number < s.pushed := by
      rcases List.mem_append.mp hm with hm | hm
      · exact hcounted.popped_lt m hm
      · exact hcounted.queued_lt m hm
    simp only [decide_eq_true_eq]
    omega
  have hwaiting : Waiting s n s := by
    refine ⟨hn, ?_, ?_, ?_⟩
    · rw [hnone]
      exact List.nodup_nil
    · rw [hnone]
      exact fun m hm => by cases hm
    · intro m hm hnumber
      have hlt := hcounted.popped_lt m hm
      omega
  rcases (run_induction (bounded_kept s n) hafter hwell (.inl hwaiting)).2 with hstill | hpopped
  · exact Nat.le_trans (overtaking_le _ _ _) hstill.length_le
  · exact hpopped.2

theorem low_not_starved :
    ∃ bound, ∀ after,
      Transition.Along step (Fits fun _ => True) ([QueueInput.send .low].foldl step initial) after →
        overtaking ([QueueInput.send .low].foldl step initial) ⟨27, ⟨.low, 0⟩⟩
          (after.foldl step ([QueueInput.send .low].foldl step initial)) ≤ bound := by
  apply no_starvation
  · refine @Transition.along_cons _ _ step (Fits fun _ => True) _ _ _ ⟨⟨?_, nofun⟩, nofun⟩
      Transition.along_nil
    intro p
    cases p <;> decide
  · decide

theorem send_pop {a : QueueNode} (hs : s.queued = [a]) {p : PacketPriority} {w : ℕ}
    {next : PacketPriority → ℕ} (hw : s.getNextWeight p = (w, next)) (hne : a.weight ≠ w) :
    ∃ light heavy : QueueNode,
      (light = a ∧ heavy = ⟨w, ⟨p, s.pushed⟩⟩ ∧ a.weight < w ∨
        light = ⟨w, ⟨p, s.pushed⟩⟩ ∧ heavy = a ∧ w < a.weight) ∧
      (s.pushMessage Heap.push p).pop.queued = [heavy] ∧
      (s.pushMessage Heap.push p).pop.popped = s.popped ++ [light] ∧
      (s.pushMessage Heap.push p).pop.outgoingPacketBufferNextWeights = next ∧
      (s.pushMessage Heap.push p).pop.pushed = s.pushed + 1 := by
  have hperm : (s.pushMessage Heap.push p).queued.Perm [⟨w, ⟨p, s.pushed⟩⟩, a] := by
    have hperm := Heap.push_perm s.outgoingPacketBuffer w ⟨p, s.pushed⟩
    rw [show s.outgoingPacketBuffer.heap = [a] from hs] at hperm
    rw [pushMessage, hw]
    exact hperm
  have hordered : (s.pushMessage Heap.push p).outgoingPacketBuffer.Ordered := by
    apply Heap.Ordered.push
    intro i b q hpos hb
    rw [show s.outgoingPacketBuffer.heap = [a] from hs, List.getElem?_singleton, if_neg (by omega)]
      at hb
    cases hb
  have hnext : (s.pushMessage Heap.push p).outgoingPacketBufferNextWeights = next :=
    congrArg Prod.snd hw
  have hpushed : (s.pushMessage Heap.push p).pushed = s.pushed + 1 := rfl
  have hpopped : (s.pushMessage Heap.push p).popped = s.popped := rfl
  generalize s.pushMessage Heap.push p = t at *
  obtain ⟨r, hr⟩ : ∃ r, t.queued.head? = some r := by
    apply Option.isSome_iff_exists.mp
    rw [List.isSome_head?]
    intro hnil
    rw [hnil] at hperm
    cases hperm.length_eq
  obtain ⟨hperm', hpopped', hnext', hpushed', -⟩ := pop_spec hr
  have hle : ∀ m ∈ t.queued, r.weight ≤ m.weight :=
    fun m hm => before_eq_false.mp (hordered.head_le hr hm)
  have hmem : ∀ m ∈ [(⟨w, ⟨p, s.pushed⟩⟩ : QueueNode), a], r.weight ≤ m.weight :=
    fun m hm => hle m (hperm.mem_iff.mpr hm)
  rw [hnext', hnext, hpopped', hpopped, hpushed', hpushed]
  rcases List.mem_cons.mp (hperm.mem_iff.mp (List.mem_of_head? hr)) with rfl | hra
  · have hlt : w < a.weight := Nat.lt_of_le_of_ne (hmem a (by simp)) (Ne.symm hne)
    refine ⟨_, a, .inr ⟨rfl, rfl, hlt⟩, ?_, rfl, rfl, rfl⟩
    exact List.perm_singleton.mp ((List.perm_cons _).mp (hperm'.symm.trans hperm))
  · obtain rfl := List.mem_singleton.mp hra
    have hlt : r.weight < w := Nat.lt_of_le_of_ne (hmem ⟨w, ⟨p, s.pushed⟩⟩ (by simp)) hne
    refine ⟨r, _, .inl ⟨rfl, rfl, hlt⟩, ?_, rfl, rfl, rfl⟩
    exact List.perm_singleton.mp
      ((List.perm_cons _).mp (hperm'.symm.trans (hperm.trans (List.Perm.swap _ _ _))))

theorem getNextWeight_immediate {w k : ℕ} (hs : s.queued = [⟨w, ⟨.immediate, k⟩⟩])
    (hw : w < 2 ^ 64) (p : PacketPriority) :
    (s.getNextWeight p).1 = (if s.outgoingPacketBufferNextWeights p < w then
        (w + initHeapWeights p) % 2 ^ 64 else s.outgoingPacketBufferNextWeights p) ∧
      (s.getNextWeight p).2 = Function.update s.outgoingPacketBufferNextWeights p
        (((s.getNextWeight p).1 + p.increment) % 2 ^ 64) := by
  have hmin : (2 ^ 64 - 2 ^ PacketPriority.immediate.level * PacketPriority.immediate.level + w +
      PacketPriority.immediate.level) % 2 ^ 64 = w := by
    show (2 ^ 64 - 0 + w + 0) % 2 ^ 64 = w
    omega
  have hpeek : s.outgoingPacketBuffer.peek = some ⟨.immediate, k⟩ := by
    rw [Heap.peek, show s.outgoingPacketBuffer.heap = _ from hs]
    rfl
  have hweight : s.outgoingPacketBuffer.peekWeight = some w := by
    rw [Heap.peekWeight, show s.outgoingPacketBuffer.heap = _ from hs]
    rfl
  rw [getNextWeight, nextWeight, hpeek, hweight]
  dsimp only
  rw [hmin, Nat.add_assoc _ (2 ^ p.level * (p.level + 1)) p.level]
  exact ⟨rfl, rfl⟩

/-- A single message at `IMMEDIATE_PRIORITY` is queued, heavier than all before it. -/
structure Alone (w : ℕ) (s : SendQueue) : Prop where
  queued : ∃ k, s.queued = [⟨w, ⟨.immediate, k⟩⟩]
  next : s.outgoingPacketBufferNextWeights .immediate = w + 1
  high : s.outgoingPacketBufferNextWeights .high = 3
  popped_lt : ∀ m ∈ s.popped, m.weight < w

theorem Alone.step {w : ℕ} (h : Alone w s) (hw : w + 2 < 2 ^ 64) :
    Alone (w + 1) (s.pushMessage Heap.push .immediate).pop := by
  obtain ⟨k, hk⟩ := h.queued
  obtain ⟨h1, h2⟩ := getNextWeight_immediate hk (by omega) .immediate
  rw [h.next, if_neg (by omega)] at h1
  rw [h1, show PacketPriority.immediate.increment = 1 from rfl, Nat.mod_eq_of_lt hw] at h2
  have hweight : s.getNextWeight .immediate =
      (w + 1, Function.update s.outgoingPacketBufferNextWeights .immediate (w + 2)) :=
    Prod.ext h1 h2
  obtain ⟨light, heavy, hcases, hqueued, hpopped, hnext, -⟩ :=
    send_pop hk hweight (Nat.ne_of_lt (Nat.lt_succ_self w))
  rcases hcases with ⟨rfl, rfl, -⟩ | ⟨-, -, hlt⟩
  · constructor
    · exact ⟨_, hqueued⟩
    · rw [hnext, Function.update_self]
    · rw [hnext, Function.update_of_ne (by decide)]
      exact h.high
    · intro m hm
      rw [hpopped] at hm
      rcases List.mem_append.mp hm with hm | hm
      · exact Nat.lt_succ_of_lt (h.popped_lt m hm)
      · rw [List.mem_singleton.mp hm]
        exact Nat.lt_succ_self w
  · exact absurd hlt (Nat.not_lt_of_lt (Nat.lt_succ_self w))

theorem exists_alone {w : ℕ} (hpos : 1 ≤ w) (hw : w + 1 < 2 ^ 64) :
    ∃ inputs : List QueueInput, Alone w (inputs.foldl SendQueue.step initial) := by
  induction w, hpos using Nat.le_induction with
  | base =>
    refine ⟨[.send .immediate, .send .immediate, .pop, .send .immediate, .pop], ?_⟩
    exact ⟨⟨2, by decide⟩, by decide, by decide, by decide⟩
  | succ w _ ih =>
    obtain ⟨inputs, halone⟩ := ih (by omega)
    refine ⟨inputs ++ [.send .immediate, .pop], ?_⟩
    rw [List.foldl_append]
    exact halone.step hw

/-- A message whose weight is so large that the next ones wrap: `count` have overtaken it. -/
structure Overtaken (s : SendQueue) (a : QueueNode) (count : ℕ) (t : SendQueue) : Prop where
  queued : t.queued = [a]
  high : t.outgoingPacketBufferNextWeights .high < 2 ^ 64 - 2
  pushed_le : s.pushed ≤ t.pushed
  popped_lt : ∀ m ∈ t.popped, m.weight < 2 ^ 64 - 2
  count_le : count ≤ (t.popped.filter fun m => decide (s.pushed ≤ m.data.number)).length

theorem Overtaken.step {k count : ℕ} (h : Overtaken s ⟨2 ^ 64 - 2, ⟨.immediate, k⟩⟩ count t) :
    Overtaken s ⟨2 ^ 64 - 2, ⟨.immediate, k⟩⟩ (count + 1) (t.pushMessage Heap.push .high).pop := by
  obtain ⟨h1, h2⟩ := getNextWeight_immediate h.queued (by omega) .high
  rw [if_pos h.high, show (2 ^ 64 - 2 + initHeapWeights .high) % 2 ^ 64 = 1 from rfl] at h1
  rw [h1, show (1 + PacketPriority.high.increment) % 2 ^ 64 = 6 from rfl] at h2
  have hweight : t.getNextWeight .high =
      (1, Function.update t.outgoingPacketBufferNextWeights .high 6) :=
    Prod.ext h1 h2
  obtain ⟨light, heavy, hcases, hqueued, hpopped, hnext, hpushed⟩ :=
    send_pop h.queued hweight (by dsimp only; omega)
  rcases hcases with ⟨-, -, hlt⟩ | ⟨rfl, rfl, -⟩
  · dsimp only at hlt
    omega
  · constructor
    · exact hqueued
    · rw [hnext, Function.update_self]
      omega
    · rw [hpushed]
      exact Nat.le_succ_of_le h.pushed_le
    · intro m hm
      rw [hpopped] at hm
      rcases List.mem_append.mp hm with hm | hm
      · exact h.popped_lt m hm
      · rw [List.mem_singleton.mp hm]
        dsimp only
        omega
    · rw [hpopped, List.filter_append, List.length_append, List.filter_singleton,
        decide_eq_true h.pushed_le]
      exact Nat.succ_le_succ h.count_le

theorem exists_overtaken {k : ℕ} (h : Overtaken s ⟨2 ^ 64 - 2, ⟨.immediate, k⟩⟩ 0 s) (count : ℕ) :
    ∃ after : List QueueInput,
      Overtaken s ⟨2 ^ 64 - 2, ⟨.immediate, k⟩⟩ count (after.foldl SendQueue.step s) := by
  induction count with
  | zero => exact ⟨[], h⟩
  | succ count ih =>
    obtain ⟨after, hovertaken⟩ := ih
    refine ⟨after ++ [.send .high, .pop], ?_⟩
    rw [List.foldl_append]
    exact hovertaken.step

/-- After about 2^64 pushes the weights wrap, and the heaviest message is overtaken for ever. -/
theorem starvation :
    ¬ ∀ (before : List QueueInput) (n : QueueNode),
      n ∈ (before.foldl SendQueue.step initial).queued →
        ∃ bound, ∀ after : List QueueInput,
          overtaking (before.foldl SendQueue.step initial) n
            (after.foldl SendQueue.step (before.foldl SendQueue.step initial)) ≤ bound := by
  intro hclaim
  obtain ⟨before, halone⟩ := exists_alone (show 1 ≤ 2 ^ 64 - 2 by omega) (by omega)
  obtain ⟨k, hk⟩ := halone.queued
  obtain ⟨bound, hbound⟩ := hclaim before ⟨2 ^ 64 - 2, ⟨.immediate, k⟩⟩
    (by rw [hk]; exact List.mem_singleton_self _)
  have hstart : Overtaken (before.foldl SendQueue.step initial) ⟨2 ^ 64 - 2, ⟨.immediate, k⟩⟩ 0
      (before.foldl SendQueue.step initial) :=
    ⟨hk, by rw [halone.high]; omega, Nat.le_refl _, halone.popped_lt, Nat.zero_le _⟩
  obtain ⟨after, hovertaken⟩ := exists_overtaken hstart (bound + 1)
  have hle := hbound after
  have hall : (after.foldl SendQueue.step (before.foldl SendQueue.step initial)).popped.takeWhile
      (fun m => decide (m ≠ ⟨2 ^ 64 - 2, ⟨.immediate, k⟩⟩)) =
      (after.foldl SendQueue.step (before.foldl SendQueue.step initial)).popped := by
    apply List.takeWhile_eq_self_iff.mpr
    intro m hm
    have hlt := hovertaken.popped_lt m hm
    apply decide_eq_true
    rintro rfl
    exact Nat.lt_irrefl _ hlt
  rw [overtaking, hall] at hle
  have hcount := hovertaken.count_le
  omega

end SendQueue

end SLikeNet
