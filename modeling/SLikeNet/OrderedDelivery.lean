import Mathlib.Data.List.Nodup
import Mathlib.Data.List.Perm.Subperm
import SLikeNet.Library.Transition
import SLikeNet.UnboundedChannel

/-! Ordered messages leave an ordering channel as the longest contiguous prefix of
those that have arrived. -/

namespace SLikeNet

/-- One ordering channel and the queue it feeds. -/
structure Receiver where
  channel : OrderingChannel SentMessage
  outputQueue : List SentMessage

namespace Receiver

def initial : Receiver := ⟨OrderingChannel.initial, []⟩

def arrive (r : Receiver) (m : SentMessage) : Receiver :=
  ⟨(r.channel.handle m).2, r.outputQueue ++ (r.channel.handle m).1.output⟩

end Receiver

/-- The same with unbounded numbers. -/
structure UnboundedReceiver where
  channel : UnboundedChannel
  outputQueue : List SentMessage

namespace UnboundedReceiver

def initial : UnboundedReceiver := ⟨UnboundedChannel.initial, []⟩

def arrive (r : UnboundedReceiver) (m : SentMessage) : UnboundedReceiver :=
  ⟨(r.channel.handle m).2, r.outputQueue ++ (r.channel.handle m).1.output⟩

def toReceiver (r : UnboundedReceiver) : Receiver := ⟨r.channel.toChannel, r.outputQueue⟩

theorem initial_toReceiver : initial.toReceiver = Receiver.initial := rfl

theorem arrive_toReceiver {r : UnboundedReceiver} {m : SentMessage} (h : Faithful r.channel m) :
    r.toReceiver.arrive m = (r.arrive m).toReceiver := by
  simp [toReceiver, Receiver.arrive, arrive, UnboundedChannel.handle_toChannel h]

end UnboundedReceiver

theorem isOlderOrderedPacket_ofNat {a b : ℕ} (ha : a < 2 ^ 23) (hb : b < 2 ^ 23) :
    isOlderOrderedPacket (.ofNat a) (.ofNat b) = true ↔ a < b := by
  have hva := Uint24.val_ofNat_of_lt (n := a) (by omega)
  have hvb := Uint24.val_ofNat_of_lt (n := b) (by omega)
  have hhalf : (Uint24.max / 2).val = 2 ^ 23 - 1 := rfl
  have hhalf' : (Uint24.max / 2 + 1).val = 2 ^ 23 := rfl
  have hle : ¬ Uint24.ofNat b > Uint24.max / 2 := by
    rw [gt_iff_lt, Uint24.lt_iff, hhalf, hvb]
    omega
  rw [isOlderOrderedPacket, if_neg hle, Bool.or_eq_true, decide_eq_true_eq, decide_eq_true_eq,
    ge_iff_le, Uint24.le_iff, Uint24.lt_iff, Uint24.val_sub, hhalf', hva, hvb]
  omega

/-- Indices below half the range and sequence numbers below the weight of an ordered
message say all there is to know. -/
theorem faithful_of_bounded {u : UnboundedChannel} {m : SentMessage} (hnext : u.next < 2 ^ 23)
    (hhighest : u.highest < 2 ^ 20) (ho : m.order < 2 ^ 23)
    (hs : m.isSequenced = true → m.sequence < 2 ^ 20)
    (hp : ∀ q ∈ u.pending, q.order < 2 ^ 23) : Faithful u m where
  index h := by
    rw [m.orderingIndex_eq] at h
    exact (Uint24.ofNat_eq_ofNat_iff (by omega) (by omega)).mp h
  older _ := by
    rw [m.orderingIndex_eq]
    exact isOlderOrderedPacket_ofNat ho hnext
  late _ hseq := by
    have := hs hseq
    rw [m.sequencingIndex_eq hseq]
    exact isOlderOrderedPacket_ofNat (by omega) (by omega)
  hole h := by
    have := u.rebase.base_le
    omega
  sequence _ hseq := by
    have := hs hseq
    omega
  head _ _ r hr hfill q hq h := by
    rw [q.orderingIndex_eq] at h
    have hqo := hp q hq
    have hr' : r ≤ 2 ^ 23 := by
      by_contra hgt
      obtain ⟨p, hpm, -, hpo⟩ := hfill (r - 1) (by omega) (by omega)
      have := hp p hpm
      omega
    exact (Uint24.ofNat_eq_ofNat_iff (by omega) (by omega)).mp h

section Run

variable {channel : ℕ} {sends : List TransmissionHeader}

theorem sentMessages_distinct :
    (sentMessages channel sends).Pairwise fun a b => ¬ (a.order = b.order ∧ a.rank = b.rank) := by
  refine (NumberedWriter.stampAll_sorted .initial channel sends).imp fun {a b} h => ?_
  rintro ⟨ho, hr⟩
  rcases h with h | ⟨-, h⟩
  · omega
  · exact absurd (hr ▸ h) (lt_irrefl _)

theorem distinct_of_subperm {ms : List SentMessage} (h : ms.Subperm (sentMessages channel sends)) :
    ms.Pairwise fun a b => ¬ (a.order = b.order ∧ a.rank = b.rank) := by
  obtain ⟨l, hperm, hsub⟩ := h
  refine (sentMessages_distinct.sublist hsub).perm hperm ?_
  rintro a b hab ⟨ho, hr⟩
  exact hab ⟨ho.symm, hr.symm⟩

/-- After the messages `pre` have arrived, those that wait belong to ordering numbers
that have not come up. -/
structure PendingInv (pre : List SentMessage) (s : UnboundedReceiver) : Prop where
  weighted : s.channel.WellWeighted
  subperm : (s.outputQueue ++ s.channel.pending).Subperm pre
  beyond : ∀ q ∈ s.channel.pending, s.channel.next < q.order
  fits : ∀ q ∈ s.channel.pending, q.isSequenced = true → q.sequence < 2 ^ 20 - 1

variable {pre : List SentMessage} {s : UnboundedReceiver} {m : SentMessage}

theorem pendingInv_initial : PendingInv [] UnboundedReceiver.initial where
  weighted := UnboundedChannel.initial_wellWeighted
  subperm := List.Subperm.refl _
  beyond := by simp [UnboundedReceiver.initial, UnboundedChannel.initial_pending]
  fits := by simp [UnboundedReceiver.initial, UnboundedChannel.initial_pending]

theorem UnboundedReceiver.arrive_discarded {d : Disposition SentMessage}
    (hd : s.channel.handle m = (d, s.channel)) (hout : d.output = []) : s.arrive m = s := by
  simp [arrive, hd, hout]

theorem PendingInv.sorted (h : PendingInv pre s)
    (hsub : pre.Subperm (sentMessages channel sends)) :
    ReorderBuffer.Sorted SentMessage.order SentMessage.rank s.channel.pending := by
  have hpending : s.channel.pending.Subperm (sentMessages channel sends) :=
    ((List.sublist_append_right _ _).subperm.trans h.subperm).trans hsub
  exact h.weighted.sorted h.fits (distinct_of_subperm hpending)

theorem PendingInv.mem_sent (h : PendingInv pre s)
    (hsub : pre.Subperm (sentMessages channel sends)) {q : SentMessage}
    (hq : q ∈ s.channel.pending) : q ∈ sentMessages channel sends :=
  hsub.subset (h.subperm.subset (List.mem_append_right _ hq))

theorem PendingInv.subperm_arrive (h : PendingInv pre s) :
    ((s.arrive m).outputQueue ++ (s.arrive m).channel.pending).Subperm (pre ++ [m]) := by
  have hgrow : pre.Subperm (pre ++ [m]) := (List.sublist_append_left pre [m]).subperm
  have hkeep := (List.subperm_append_right [m]).mpr h.subperm
  rcases Nat.lt_trichotomy m.order s.channel.next with hlt | heq | hgt
  · rw [UnboundedReceiver.arrive_discarded (UnboundedChannel.handle_older hlt) rfl]
    exact h.subperm.trans hgrow
  · cases hs : m.isSequenced
    · obtain ⟨out, ho⟩ := UnboundedChannel.handle_ordered heq hs
      refine List.Perm.subperm ?_ |>.trans hkeep
      simp only [UnboundedReceiver.arrive, ho.disposition, Disposition.output, ← ho.append,
        List.append_assoc, List.cons_append]
      refine List.Perm.append_left _ ?_
      simpa using (@List.perm_append_comm _ [m] (out ++ (s.channel.handle m).2.pending))
    · by_cases hlt : m.sequence < s.channel.highest
      · rw [UnboundedReceiver.arrive_discarded (UnboundedChannel.handle_late heq hs hlt) rfl]
        exact h.subperm.trans hgrow
      · have he := UnboundedChannel.handle_sequenced heq hs (Nat.le_of_not_lt hlt)
        refine List.Perm.subperm ?_ |>.trans hkeep
        simp only [UnboundedReceiver.arrive, he, Disposition.output, List.append_assoc]
        exact List.Perm.append_left _ List.perm_append_comm
  · obtain ⟨h1, -, -, h4⟩ := UnboundedChannel.handle_buffered hgt
    refine List.Perm.subperm ?_ |>.trans hkeep
    simp only [UnboundedReceiver.arrive, h1, Disposition.output, List.append_nil,
      List.append_assoc]
    exact (h4.trans (List.perm_append_singleton m _).symm).append_left _

theorem PendingInv.arrive (h : PendingInv pre s)
    (hsub : pre.Subperm (sentMessages channel sends))
    (hfit : s.channel.next < m.order → m.isSequenced = true → m.sequence < 2 ^ 20 - 1) :
    PendingInv (pre ++ [m]) (s.arrive m) := by
  suffices hp : ∀ q ∈ (s.channel.handle m).2.pending, (s.channel.handle m).2.next < q.order ∧
      (q.isSequenced = true → q.sequence < 2 ^ 20 - 1) from
    ⟨h.weighted.handle m, h.subperm_arrive, fun q hq => (hp q hq).1, fun q hq => (hp q hq).2⟩
  intro q hq
  rcases Nat.lt_trichotomy m.order s.channel.next with hlt | heq | hgt
  · rw [UnboundedChannel.handle_older hlt] at hq ⊢
    exact ⟨h.beyond q hq, h.fits q hq⟩
  · cases hs : m.isSequenced
    · obtain ⟨out, ho⟩ := UnboundedChannel.handle_ordered heq hs
      refine ⟨UnboundedChannel.handle_ordered_beyond (h.sorted hsub) h.beyond heq hs q hq, ?_⟩
      exact h.fits q (ho.append ▸ List.mem_append_right _ hq)
    · by_cases hlt : m.sequence < s.channel.highest
      · rw [UnboundedChannel.handle_late heq hs hlt] at hq ⊢
        exact ⟨h.beyond q hq, h.fits q hq⟩
      · rw [UnboundedChannel.handle_sequenced heq hs (Nat.le_of_not_lt hlt)] at hq ⊢
        exact ⟨h.beyond q hq, h.fits q hq⟩
  · obtain ⟨-, h2, -, h4⟩ := UnboundedChannel.handle_buffered hgt
    rw [h2]
    rcases List.mem_cons.mp (h4.mem_iff.mp hq) with rfl | hq
    · exact ⟨hgt, hfit hgt⟩
    · exact ⟨h.beyond q hq, h.fits q hq⟩

/-- What has left the channel after the messages `pre` have arrived. -/
structure OrderedInv (pre : List SentMessage) (s : UnboundedReceiver) : Prop
    extends PendingInv pre s where
  highest : s.channel.highest < 2 ^ 20
  contiguous : (s.outputQueue.filter fun m => !m.isSequenced).map SentMessage.order =
    List.range s.channel.next
  kept : ∀ m ∈ pre, m.isSequenced = false → m.order < s.channel.next ∨ m ∈ s.channel.pending

theorem orderedInv_initial : OrderedInv [] UnboundedReceiver.initial where
  toPendingInv := pendingInv_initial
  highest := by decide
  contiguous := rfl
  kept := by simp

theorem OrderedInv.contiguous_ordered (h : OrderedInv pre s) {out : List SentMessage}
    (ho : s.channel.OrderedReturn m out) (hm : m.order = s.channel.next)
    (hs : m.isSequenced = false) :
    ((s.arrive m).outputQueue.filter fun m => !m.isSequenced).map SentMessage.order =
      List.range (s.arrive m).channel.next := by
  have hn := ho.next_lt
  simp only [UnboundedReceiver.arrive, ho.disposition, Disposition.output]
  rw [List.filter_append, List.map_append, h.contiguous,
    List.filter_cons_of_pos (by simp [hs]), List.map_cons, ho.ordered, hm,
    List.range_eq_range', List.range_eq_range', ← List.range'_succ]
  have := @List.range'_append_1 0 s.channel.next
    ((s.channel.handle m).2.next - (s.channel.next + 1) + 1)
  rw [Nat.zero_add] at this
  rw [this]
  congr 1
  omega

theorem UnboundedChannel.OrderedReturn.order_lt {u : UnboundedChannel} {out : List SentMessage}
    (ho : u.OrderedReturn m out) {q : SentMessage} (hq : q ∈ out) (hs : q.isSequenced = false) :
    q.order < (u.handle m).2.next := by
  have hmem : q.order ∈ List.range' (u.next + 1) ((u.handle m).2.next - (u.next + 1)) :=
    ho.ordered ▸ List.mem_map_of_mem (List.mem_filter.mpr ⟨hq, by simp [hs]⟩)
  have := List.mem_range'_1.mp hmem
  omega

theorem OrderedInv.arrive (h : OrderedInv pre s)
    (hsub : (pre ++ [m]).Subperm (sentMessages channel sends))
    (hfit : ∀ m ∈ sentMessages channel sends, m.isSequenced = true → m.sequence < 2 ^ 20 - 1) :
    OrderedInv (pre ++ [m]) (s.arrive m) := by
  have hpre : pre.Subperm (sentMessages channel sends) :=
    (List.sublist_append_left pre [m]).subperm.trans hsub
  have hm := hsub.subset (List.mem_append_right pre (List.mem_singleton_self m))
  have hp := h.toPendingInv.arrive hpre fun _ => hfit m hm
  suffices hrest : (s.arrive m).channel.highest < 2 ^ 20 ∧
      ((s.arrive m).outputQueue.filter fun m => !m.isSequenced).map SentMessage.order =
        List.range (s.arrive m).channel.next ∧
      ∀ q, (q ∈ pre ∧ (q.order < s.channel.next ∨ q ∈ s.channel.pending) ∨ q = m) →
        q.isSequenced = false →
        q.order < (s.arrive m).channel.next ∨ q ∈ (s.arrive m).channel.pending by
    refine ⟨hp, hrest.1, hrest.2.1, fun q hq hs => hrest.2.2 q ?_ hs⟩
    rcases List.mem_append.mp hq with hq | hq
    · exact .inl ⟨hq, h.kept q hq hs⟩
    · exact .inr (List.mem_singleton.mp hq)
  rcases Nat.lt_trichotomy m.order s.channel.next with hlt | heq | hgt
  · rw [UnboundedReceiver.arrive_discarded (UnboundedChannel.handle_older hlt) rfl]
    refine ⟨h.highest, h.contiguous, ?_⟩
    rintro q (⟨-, hq⟩ | rfl) -
    · exact hq
    · exact .inl hlt
  · cases hs : m.isSequenced
    · obtain ⟨out, ho⟩ := UnboundedChannel.handle_ordered heq hs
      refine ⟨?_, h.contiguous_ordered ho heq hs, ?_⟩
      · simp only [UnboundedReceiver.arrive, ho.highest]
        rcases UnboundedChannel.lastSequence_cases 0 out with ⟨h0, -⟩ | ⟨l, q, l', hl, hqs, hl', -⟩
        · rw [h0]
          decide
        · have := h.fits q (by rw [← ho.append, hl]; simp) hqs
          omega
      · have hn := ho.next_lt
        simp only [UnboundedReceiver.arrive]
        rintro q (⟨-, hq | hq⟩ | rfl) hqs
        · exact .inl (by omega)
        · rw [← ho.append] at hq
          rcases List.mem_append.mp hq with hq | hq
          · exact .inl (ho.order_lt hq hqs)
          · exact .inr hq
        · exact .inl (by omega)
    · have hms : ∀ q, q = m → q.isSequenced = false → False := by
        rintro q rfl hqs
        rw [hs] at hqs
        cases hqs
      by_cases hlt : m.sequence < s.channel.highest
      · rw [UnboundedReceiver.arrive_discarded (UnboundedChannel.handle_late heq hs hlt) rfl]
        refine ⟨h.highest, h.contiguous, ?_⟩
        rintro q (⟨-, hq⟩ | hq) hqs
        · exact hq
        · exact (hms q hq hqs).elim
      · simp only [UnboundedReceiver.arrive,
          UnboundedChannel.handle_sequenced heq hs (Nat.le_of_not_lt hlt), Disposition.output]
        refine ⟨?_, ?_, ?_⟩
        · have := hfit m hm hs
          omega
        · simpa [List.filter_append, hs] using h.contiguous
        · rintro q (⟨-, hq⟩ | hq) hqs
          · exact hq
          · exact (hms q hq hqs).elim
  · obtain ⟨h1, h2, h3, h4⟩ := UnboundedChannel.handle_buffered hgt
    simp only [UnboundedReceiver.arrive, h1, h2, h3, Disposition.output, List.append_nil]
    refine ⟨h.highest, h.contiguous, ?_⟩
    rintro q (⟨-, hq | hq⟩ | rfl) -
    · exact .inl hq
    · exact .inr (h4.mem_iff.mpr (List.mem_cons_of_mem _ hq))
    · exact .inr (h4.mem_iff.mpr List.mem_cons_self)

theorem OrderedInv.faithful (h : OrderedInv pre s)
    (hsub : (pre ++ [m]).Subperm (sentMessages channel sends))
    (hfit : ∀ m ∈ sentMessages channel sends, m.isSequenced = true → m.sequence < 2 ^ 20 - 1)
    (hfew : ∀ m ∈ sentMessages channel sends, m.order < 2 ^ 23)
    (hread : s.channel.next < 2 ^ 23) : Faithful s.channel m := by
  have hpre : pre.Subperm (sentMessages channel sends) :=
    (List.sublist_append_left pre [m]).subperm.trans hsub
  have hm := hsub.subset (List.mem_append_right pre (List.mem_singleton_self m))
  refine faithful_of_bounded hread h.highest (hfew m hm) (fun hs => ?_) fun q hq =>
    hfew q (h.mem_sent hpre hq)
  have := hfit m hm hs
  omega

theorem sentMessages_ordered (channel : ℕ) (sends : List TransmissionHeader) :
    let ordered := (sentMessages channel sends).filter fun m => !m.isSequenced
    ordered.map SentMessage.order = List.range ordered.length ∧
      ∀ m ∈ sentMessages channel sends, m.order ≤ ordered.length := by
  obtain ⟨n, hn, hle⟩ := NumberedWriter.stampAll_ordered .initial channel sends
  have hlen := congrArg List.length hn
  simp only [List.length_map, List.length_range'] at hlen
  dsimp only
  rw [sentMessages, hlen, List.range_eq_range']
  exact ⟨hn, fun m hm => by simpa [NumberedWriter.initial] using hle m hm⟩

theorem OrderedInv.next_le (h : OrderedInv pre s)
    (hsub : pre.Subperm (sentMessages channel sends)) :
    s.channel.next ≤ ((sentMessages channel sends).filter fun m => !m.isSequenced).length := by
  have hlen := congrArg List.length h.contiguous
  rw [List.length_map, List.length_range] at hlen
  have hout : s.outputQueue.Subperm (sentMessages channel sends) :=
    ((List.sublist_append_left _ _).subperm.trans h.subperm).trans hsub
  rw [← hlen, ← List.countP_eq_length_filter, ← List.countP_eq_length_filter]
  exact hout.countP_le _

theorem eq_take_of_contiguous {ms : List SentMessage} {k : ℕ}
    (hms : ∀ m ∈ ms, m ∈ (sentMessages channel sends).filter fun m => !m.isSequenced)
    (hk : ms.map SentMessage.order = List.range k)
    (hle : k ≤ ((sentMessages channel sends).filter fun m => !m.isSequenced).length) :
    ms = ((sentMessages channel sends).filter fun m => !m.isSequenced).take k := by
  have hord := (sentMessages_ordered channel sends).1
  generalize (sentMessages channel sends).filter (fun m => !m.isSequenced) = ordered at *
  have hinj := List.inj_on_of_nodup_map (hord ▸ List.nodup_range)
  have hlen : ms.length = k := by simpa using congrArg List.length hk
  refine List.ext_getElem (by simp [hlen, hle]) fun i h1 h2 => ?_
  have hi : i < ordered.length := by omega
  refine hinj (hms _ (List.getElem_mem h1)) (List.mem_of_mem_take (List.getElem_mem h2)) ?_
  have e1 : (ms.map SentMessage.order)[i]? = some i := by simp [hk, hlen ▸ h1]
  have e2 : (ordered.map SentMessage.order)[i]? = some i := by simp [hord, hi]
  rw [List.getElem?_map, List.getElem?_eq_getElem h1] at e1
  rw [List.getElem?_map, List.getElem?_eq_getElem hi] at e2
  rw [List.getElem_take]
  exact (Option.some.inj e1).trans (Option.some.inj e2).symm

theorem sequence_lt (hseq : ∀ m ∈ sentMessages channel sends, m.isSequenced = true →
      m.header.sequencingIndex.val < 2 ^ 20 - 1) :
    ∀ m ∈ sentMessages channel sends, m.isSequenced = true → m.sequence < 2 ^ 20 - 1 := by
  intro m hm hs
  by_contra hge
  have hval : ∀ q ∈ sentMessages channel sends, q.isSequenced = true →
      q.sequence ≠ 2 ^ 20 - 1 := by
    intro q hq hqs he
    have := hseq q hq hqs
    rw [q.sequencingIndex_eq hqs, he] at this
    exact absurd this (by decide)
  have hne := hval m hm hs
  obtain ⟨q, hq, hqs, he⟩ := NumberedWriter.stampAll_sequence (s := 2 ^ 20 - 1) hm hs
    (fun _ => by simp [NumberedWriter.initial]) (by omega)
  exact hval q hq hqs he

/-- The ordered messages that `r` has returned are the longest prefix of those sent
that is among the arrivals, and no message is left waiting that could be returned. -/
def DeliversLongestPrefix (sent arrivals : List SentMessage) (r : Receiver) : Prop :=
  let delivered := r.outputQueue.filter fun m => !m.isSequenced
  ∃ k, (∀ i < k, ∃ m ∈ arrivals, m.isSequenced = false ∧ m.header.orderingIndex.val = i) ∧
    (∀ m ∈ arrivals, m.isSequenced = false → m.header.orderingIndex.val ≠ k) ∧
    delivered = (sent.filter fun m => !m.isSequenced).take k ∧
    delivered.map (fun m => m.header.orderingIndex.val) = List.range k ∧
    ∀ m ∈ r.channel.orderingHeap.contents, k < m.header.orderingIndex.val

theorem OrderedInv.deliversLongestPrefix {arrivals : List SentMessage}
    (h : OrderedInv arrivals s) (harrivals : arrivals.Subperm (sentMessages channel sends))
    (hval : ∀ m ∈ sentMessages channel sends, m.header.orderingIndex.val = m.order) :
    DeliversLongestPrefix (sentMessages channel sends) arrivals s.toReceiver := by
  have houts : ∀ m ∈ s.outputQueue, m ∈ arrivals := fun m hm =>
    h.subperm.subset (List.mem_append_left _ hm)
  have hmap : (s.outputQueue.filter fun m => !m.isSequenced).map
      (fun m => m.header.orderingIndex.val) = List.range s.channel.next := by
    rw [← h.contiguous]
    exact List.map_congr_left fun m hm =>
      hval m (harrivals.subset (houts m (List.mem_of_mem_filter hm)))
  refine ⟨s.channel.next, fun i hi => ?_, fun m hm hs hne => ?_, ?_, hmap, fun m hm => ?_⟩
  · obtain ⟨m, hm, hmi⟩ := List.mem_map.mp (hmap ▸ List.mem_range.mpr hi)
    have := List.mem_filter.mp hm
    exact ⟨m, houts m this.1, by simpa using this.2, hmi⟩
  · rw [hval m (harrivals.subset hm)] at hne
    rcases h.kept m hm hs with hlt | hp
    · omega
    · have := h.beyond m hp
      omega
  · refine eq_take_of_contiguous (fun m hm => ?_) h.contiguous (h.next_le harrivals)
    have := List.mem_filter.mp hm
    exact List.mem_filter.mpr ⟨harrivals.subset (houts m this.1), this.2⟩
  · have hp : m ∈ s.channel.pending := (UnboundedChannel.pending_perm _).mem_iff.mpr hm
    rw [hval m (h.mem_sent harrivals hp)]
    exact h.beyond m hp

theorem ordered_delivery_is_longest_prefix {arrivals : List SentMessage}
    (hfew : ((sentMessages channel sends).filter fun m => !m.isSequenced).length < 2 ^ 23)
    (hseq : ∀ m ∈ sentMessages channel sends, m.isSequenced = true →
      m.header.sequencingIndex.val < 2 ^ 20 - 1)
    (harrivals : arrivals.Subperm (sentMessages channel sends)) :
    DeliversLongestPrefix (sentMessages channel sends) arrivals
      (arrivals.foldl Receiver.arrive .initial) := by
  have hfit := sequence_lt hseq
  have hbound : ∀ m ∈ sentMessages channel sends, m.order < 2 ^ 23 := fun m hm => by
    have := (sentMessages_ordered channel sends).2 m hm
    omega
  have hsubperm : ∀ pre m post, arrivals = pre ++ m :: post →
      (pre ++ [m]).Subperm (sentMessages channel sends) := fun pre m post heq => by
    refine List.Sublist.subperm ?_ |>.trans harrivals
    rw [heq]
    simp
  have hinv := Transition.run_prefix OrderedInv orderedInv_initial fun pre m post heq h =>
      h.arrive (hsubperm pre m post heq) hfit
  have hgood : Transition.Along UnboundedReceiver.arrive (fun s m => Faithful s.channel m)
      .initial arrivals := fun pre m post heq => by
    have hsub := hsubperm pre m post heq
    have h := hinv pre (m :: post) heq
    have hle := h.next_le ((List.sublist_append_left pre [m]).subperm.trans hsub)
    exact h.faithful hsub hfit hbound (by omega)
  have hrun := hgood.simulation UnboundedReceiver.toReceiver fun s m hf =>
    UnboundedReceiver.arrive_toReceiver hf
  rw [UnboundedReceiver.initial_toReceiver] at hrun
  rw [hrun]
  refine (hinv arrivals [] (by simp)).deliversLongestPrefix harrivals fun m hm => ?_
  have := hbound m hm
  rw [m.orderingIndex_eq, Uint24.val_ofNat_of_lt (by omega)]

end Run

/-- Messages of every kind that takes an ordering index. -/
def mixedSends : List TransmissionHeader :=
  [.fromPool .unreliableSequenced, .fromPool .reliableOrdered, .fromPool .reliableSequenced,
    .fromPool .unreliableSequenced, .fromPool .reliableOrderedWithAckReceipt,
    .fromPool .reliableSequenced]

theorem reversed_delivery_is_longest_prefix :
    DeliversLongestPrefix (sentMessages 0 mixedSends) (sentMessages 0 mixedSends).reverse
      ((sentMessages 0 mixedSends).reverse.foldl Receiver.arrive .initial) :=
  ordered_delivery_is_longest_prefix (by decide) (by decide) (List.reverse_perm _).subperm

end SLikeNet
