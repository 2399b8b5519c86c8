import SLikeNet.OrderedDelivery

/-! Sequenced messages on an ordering channel: in which order they are delivered,
and which of them are discarded as late. -/

namespace SLikeNet

def SentMessage.Earlier (a b : SentMessage) : Prop :=
  a.order < b.order ∨ a.order = b.order ∧ a.sequence < b.sequence

instance (a b : SentMessage) : Decidable (a.Earlier b) :=
  inferInstanceAs (Decidable (_ ∨ _ ∧ _))

/-- Both carry the same ordering and sequencing index. -/
def SentMessage.SameIndices (a b : SentMessage) : Prop :=
  a.order = b.order ∧ a.sequence = b.sequence

instance (a b : SentMessage) : Decidable (a.SameIndices b) := inferInstanceAs (Decidable (_ ∧ _))

/-- Sequenced messages were delivered in strictly increasing order. -/
def SequencedIncreasing (r : Receiver) : Prop :=
  (r.outputQueue.filter SentMessage.isSequenced).Pairwise SentMessage.Earlier

instance (r : Receiver) : Decidable (SequencedIncreasing r) :=
  inferInstanceAs (Decidable (List.Pairwise _ _))

/-- A sequenced message that arrives is not a copy of one that waits in the heap, nor
of one already delivered if it carries the very index the channel would deliver next. -/
def Fresh (s : UnboundedReceiver) (m : SentMessage) : Prop :=
  m.isSequenced = true →
    (s.channel.next < m.order →
      ∀ q ∈ s.channel.pending, q.isSequenced = true → ¬ q.SameIndices m) ∧
    (m.order = s.channel.next → m.sequence = s.channel.highest →
      ∀ q ∈ s.outputQueue, q.isSequenced = true → ¬ q.SameIndices m)

instance (s : UnboundedReceiver) (m : SentMessage) : Decidable (Fresh s m) :=
  inferInstanceAs (Decidable (_ → _))

structure SequencedInv (s : UnboundedReceiver) : Prop where
  weighted : s.channel.WellWeighted
  increasing : (s.outputQueue.filter SentMessage.isSequenced).Pairwise SentMessage.Earlier
  delivered : ∀ q ∈ s.outputQueue, q.isSequenced = true →
    q.order < s.channel.next ∨ q.order = s.channel.next ∧ q.sequence ≤ s.channel.highest
  distinct : s.channel.pending.Pairwise fun a b =>
    a.isSequenced = true → b.isSequenced = true → ¬ a.SameIndices b

theorem sequencedInv_initial : SequencedInv UnboundedReceiver.initial where
  weighted := UnboundedChannel.initial_wellWeighted
  increasing := List.Pairwise.nil
  delivered := by simp [UnboundedReceiver.initial]
  distinct := List.Pairwise.nil

variable {s : UnboundedReceiver} {m : SentMessage}

theorem SequencedInv.out_increasing (h : SequencedInv s) {out : List SentMessage}
    (ho : s.channel.OrderedReturn m out) :
    out.Pairwise fun a b => a.isSequenced = true → b.isSequenced = true → a.Earlier b := by
  have hsub : out.Sublist s.channel.pending := ho.append ▸ List.sublist_append_left _ _
  have hall := ((ho.numbers_sorted.and (h.weighted.pending_sorted.sublist hsub)).and
    (h.distinct.sublist hsub))
  refine hall.imp fun {a b} hab ha hb => ?_
  obtain ⟨⟨hn, hw⟩, hd⟩ := hab
  have hne := hd ha hb
  simp only [SentMessage.SameIndices, UnboundedChannel.heapWeight, ha, hb, if_true] at hne hw
  unfold SentMessage.Earlier
  by_cases heq : a.order = b.order
  · rw [heq] at hw hne
    have : a.sequence ≠ b.sequence := fun he => hne ⟨rfl, he⟩
    omega
  · omega

theorem SequencedInv.returned_ordered (h : SequencedInv s) (ho : m.order = s.channel.next)
    (hs : m.isSequenced = false) : SequencedInv (s.arrive m) := by
  obtain ⟨out, hr⟩ := UnboundedChannel.handle_ordered ho hs
  have hn := hr.next_lt
  have hout := h.out_increasing hr
  refine ⟨h.weighted.handle m, ?_, fun q hq hqs => ?_, ?_⟩
  · simp only [UnboundedReceiver.arrive, hr.disposition, Disposition.output, List.filter_append]
    rw [List.filter_cons_of_neg (by simp [hs])]
    refine List.pairwise_append.mpr ⟨h.increasing, ?_, fun a ha b hb => .inl ?_⟩
    · refine (hout.filter _).imp_of_mem fun {a b} ha hb hab => ?_
      exact hab (List.mem_filter.mp ha).2 (List.mem_filter.mp hb).2
    · have ha' := List.mem_filter.mp ha
      have hb' := (hr.numbers b (List.mem_filter.mp hb).1).1
      rcases h.delivered a ha'.1 ha'.2 with hlt | ⟨heq, -⟩ <;> omega
  · simp only [UnboundedReceiver.arrive, hr.disposition, Disposition.output] at hq ⊢
    rcases List.mem_append.mp hq with hq | hq
    · left
      rcases h.delivered q hq hqs with hlt | ⟨heq, -⟩ <;> omega
    · rcases List.mem_cons.mp hq with rfl | hq
      · rw [hs] at hqs
        cases hqs
      · have hle := (hr.numbers q hq).2
        refine (Nat.lt_or_eq_of_le hle).imp_right fun heq => ⟨heq, ?_⟩
        rw [hr.highest]
        rcases UnboundedChannel.lastSequence_cases 0 out with ⟨-, hno⟩ | ⟨l, z, l', hl, hz, hz', hno⟩
        · have := hno q hq
          rw [hqs] at this
          cases this
        · -- `z` is the last sequenced message off the heap, so `q` is `z` or stands before it
          rw [hz']
          have hzle := (hr.numbers z (by rw [hl]; simp)).2
          rw [hl] at hq hout
          rcases List.mem_append.mp hq with hql | hql
          · have := (List.pairwise_append.mp hout).2.2 q hql z List.mem_cons_self hqs hz
            unfold SentMessage.Earlier at this
            omega
          · rcases List.mem_cons.mp hql with rfl | hql
            · exact Nat.le_refl _
            · have := hno q hql
              rw [hqs] at this
              cases this
  · refine h.distinct.sublist ?_
    rw [← hr.append]
    exact List.sublist_append_right _ _

theorem SequencedInv.returned_sequenced (h : SequencedInv s) (hf : Fresh s m)
    (ho : m.order = s.channel.next) (hs : m.isSequenced = true)
    (hge : s.channel.highest ≤ m.sequence) : SequencedInv (s.arrive m) := by
  have he := UnboundedChannel.handle_sequenced ho hs hge
  have hw := h.weighted.handle m
  simp only [UnboundedReceiver.arrive, he, Disposition.output] at hw ⊢
  refine ⟨hw, ?_, fun q hq hqs => ?_, h.distinct⟩
  · rw [List.filter_append]
    refine List.pairwise_append.mpr ⟨h.increasing, by simp [hs], fun a ha b hb => ?_⟩
    obtain rfl : b = m := List.mem_singleton.mp (List.mem_of_mem_filter hb)
    have ha' := List.mem_filter.mp ha
    rcases h.delivered a ha'.1 ha'.2 with hlt | ⟨heq, hle⟩
    · exact .inl (by omega)
    · refine .inr ⟨by omega, Nat.lt_of_le_of_ne (by omega) fun hse => ?_⟩
      exact (hf hs).2 ho (by omega) a ha'.1 ha'.2 ⟨by omega, hse⟩
  · dsimp only
    rcases List.mem_append.mp hq with hq | hq
    · rcases h.delivered q hq hqs with hlt | ⟨heq, hle⟩
      · exact .inl hlt
      · exact .inr ⟨heq, by omega⟩
    · obtain rfl := List.mem_singleton.mp hq
      exact .inr ⟨ho, by omega⟩

theorem SequencedInv.arrive (h : SequencedInv s) (hf : Fresh s m) : SequencedInv (s.arrive m) := by
  rcases Nat.lt_trichotomy m.order s.channel.next with hlt | heq | hgt
  · rwa [UnboundedReceiver.arrive_discarded (UnboundedChannel.handle_older hlt) rfl]
  · cases hs : m.isSequenced
    · exact h.returned_ordered heq hs
    · by_cases hlt : m.sequence < s.channel.highest
      · rwa [UnboundedReceiver.arrive_discarded (UnboundedChannel.handle_late heq hs hlt) rfl]
      · exact h.returned_sequenced hf heq hs (Nat.le_of_not_lt hlt)
  · obtain ⟨h1, h2, h3, h4⟩ := UnboundedChannel.handle_buffered hgt
    have hw := h.weighted.handle m
    refine ⟨hw, ?_, ?_, ?_⟩ <;>
      simp only [UnboundedReceiver.arrive, h1, h2, h3, Disposition.output, List.append_nil]
    · exact h.increasing
    · exact h.delivered
    · refine List.Pairwise.perm (List.pairwise_cons.mpr ⟨fun q hq hms hqs hsame => ?_, h.distinct⟩)
        h4.symm fun hab ha hb hsame => hab hb ha ⟨hsame.1.symm, hsame.2.symm⟩
      exact (hf hms).1 hgt q hq hqs ⟨hsame.1.symm, hsame.2.symm⟩

/-- In every run whose arrivals are fresh, sequenced messages are delivered in strictly
increasing order. -/
theorem sequenced_delivery_increasing {arrivals : List SentMessage}
    (hgood : Transition.Along UnboundedReceiver.arrive
      (fun s m => Faithful s.channel m ∧ Fresh s m) .initial arrivals) :
    SequencedIncreasing (arrivals.foldl Receiver.arrive .initial) := by
  have hrun := hgood.simulation UnboundedReceiver.toReceiver fun s m hf =>
    UnboundedReceiver.arrive_toReceiver hf.1
  rw [UnboundedReceiver.initial_toReceiver] at hrun
  rw [hrun]
  exact (hgood.invariant sequencedInv_initial fun s m h hf => h.arrive hf.2).increasing

/-- The messages of `mixedSends` with the sequenced ones of index one around the
ordered message that precedes them. -/
def gapArrivals : List SentMessage :=
  [2, 1, 3].filterMap fun i => (sentMessages 0 mixedSends)[i]?

theorem gapArrivals_increasing :
    SequencedIncreasing (gapArrivals.foldl Receiver.arrive .initial) :=
  sequenced_delivery_increasing <|
    Transition.along_cons ⟨faithful_of_bounded (by decide) (by decide) (by decide) (by decide)
      (by decide), by decide⟩ <|
    Transition.along_cons ⟨faithful_of_bounded (by decide) (by decide) (by decide) (by decide)
      (by decide), by decide⟩ <|
    Transition.along_cons ⟨faithful_of_bounded (by decide) (by decide) (by decide) (by decide)
      (by decide), by decide⟩ Transition.along_nil

/-- A sequenced message that came off the heap is returned again when its duplicate
arrives: the pop leaves the highest sequencing index at the message's own. -/
theorem sequenced_delivery_repeats : ¬ ∀ (channel : ℕ) (sends : List TransmissionHeader)
    (arrivals : List SentMessage), (∀ m ∈ arrivals, m ∈ sentMessages channel sends) →
    (∀ m ∈ arrivals, m.header.reliability ≠ .unreliableSequenced → arrivals.count m = 1) →
    SequencedIncreasing (arrivals.foldl Receiver.arrive .initial) := by
  intro h
  have := h 0 mixedSends ([3, 1, 3].filterMap fun i => (sentMessages 0 mixedSends)[i]?)
    (by decide) (by decide)
  exact absurd this (by decide)

/-- A discarded sequenced message is behind the read index, or one with its ordering
index and no smaller sequencing index has been returned. -/
def DiscardedWithCause (r : Receiver) (m : SentMessage) : Prop :=
  m.isSequenced = true → (r.channel.handle m).1.isDiscarded = true →
    isOlderOrderedPacket m.header.orderingIndex r.channel.orderedReadIndex = true ∨
    ∃ q ∈ r.outputQueue, q.isSequenced = true ∧ q.order = m.order ∧ m.sequence ≤ q.sequence

instance (r : Receiver) (m : SentMessage) : Decidable (DiscardedWithCause r m) :=
  inferInstanceAs (Decidable (_ → _ → _ ∨ _))

/-- A sequenced message that has to wait fits the heap weight below an ordered one. -/
def FitsWeight (u : UnboundedChannel) (m : SentMessage) : Prop :=
  u.next < m.order → m.isSequenced = true → m.sequence < 2 ^ 20 - 1

/-- If the awaited ordered message arrives, every sequenced message with a sequencing
index above zero that comes off the heap with the ordered message behind it is followed
by another sequenced message that comes off. -/
def NoStaleHighest (u : UnboundedChannel) (m : SentMessage) : Prop :=
  m.order = u.next → m.isSequenced = false → ∀ q ∈ u.pending, q.isSequenced = true →
    q.sequence ≠ 0 → Filled u.pending (u.next + 1) (q.order + 1) →
    ∃ q' ∈ u.pending, q'.isSequenced = true ∧ q.order < q'.order ∧
      Filled u.pending (u.next + 1) q'.order

instance (u : UnboundedChannel) (m : SentMessage) : Decidable (FitsWeight u m) :=
  inferInstanceAs (Decidable (_ → _))

instance (u : UnboundedChannel) (m : SentMessage) : Decidable (NoStaleHighest u m) :=
  inferInstanceAs (Decidable (_ → _))

/-- Below the highest sequencing index something of the current ordering index was returned. -/
structure HighestInv (pre : List SentMessage) (s : UnboundedReceiver) : Prop
    extends PendingInv pre s where
  justified : s.channel.highest = 0 ∨ ∃ q ∈ s.outputQueue, q.isSequenced = true ∧
    q.order = s.channel.next ∧ s.channel.highest ≤ q.sequence + 1

theorem highestInv_initial : HighestInv [] UnboundedReceiver.initial where
  toPendingInv := pendingInv_initial
  justified := .inl rfl

section Run

variable {channel : ℕ} {sends : List TransmissionHeader} {pre : List SentMessage}

theorem PendingInv.mem_out (h : PendingInv pre s) (hsub : pre.Subperm (sentMessages channel sends))
    {out : List SentMessage} (hr : s.channel.OrderedReturn m out) (ho : m.order = s.channel.next)
    (hs : m.isSequenced = false) {q : SentMessage} (hq : q ∈ s.channel.pending)
    (hfill : Filled s.channel.pending (s.channel.next + 1) q.order) : q ∈ out := by
  have hbeyond := UnboundedChannel.handle_ordered_beyond (h.sorted hsub) h.beyond ho hs
  rw [← hr.append] at hq hfill
  refine (List.mem_append.mp hq).resolve_right fun hrest => ?_
  obtain ⟨p, hp, hps, hpo⟩ := hfill _ hr.next_lt (hbeyond q hrest)
  rcases List.mem_append.mp hp with hp | hp
  · have := hr.order_lt hp hps
    omega
  · have := hbeyond p hp
    omega

theorem UnboundedChannel.OrderedReturn.filled {u : UnboundedChannel} {out : List SentMessage}
    (hr : u.OrderedReturn m out) : Filled u.pending (u.next + 1) (u.handle m).2.next := by
  intro i h1 h2
  have hmem : i ∈ (out.filter fun q => !q.isSequenced).map SentMessage.order := by
    rw [hr.ordered, List.mem_range'_1]
    omega
  obtain ⟨q, hq, hqi⟩ := List.mem_map.mp hmem
  have hq' := List.mem_filter.mp hq
  exact ⟨q, hr.append ▸ List.mem_append_left _ hq'.1, by simpa using hq'.2, hqi⟩

theorem HighestInv.justified_ordered (h : HighestInv pre s)
    (hsub : pre.Subperm (sentMessages channel sends)) (hstale : NoStaleHighest s.channel m)
    (ho : m.order = s.channel.next) (hs : m.isSequenced = false) :
    (s.arrive m).channel.highest = 0 ∨ ∃ q ∈ (s.arrive m).outputQueue, q.isSequenced = true ∧
      q.order = (s.arrive m).channel.next ∧ (s.arrive m).channel.highest ≤ q.sequence + 1 := by
  obtain ⟨out, hr⟩ := UnboundedChannel.handle_ordered ho hs
  simp only [UnboundedReceiver.arrive, hr.disposition, hr.highest, Disposition.output]
  rcases UnboundedChannel.lastSequence_cases 0 out with ⟨h0, -⟩ | ⟨l, q, l', hl, hqs, hlast, hno⟩
  · exact .inl h0
  · have hq : q ∈ out := by simp [hl]
    have hqp : q ∈ s.channel.pending := hr.append ▸ List.mem_append_left _ hq
    rw [hlast]
    by_cases hzero : q.sequence = 0
    · exact .inl hzero
    · refine .inr ⟨q, by simp [hq], hqs, ?_, Nat.le_succ _⟩
      by_contra hne
      have hlt : q.order < (s.channel.handle m).2.next :=
        Nat.lt_of_le_of_ne (hr.numbers q hq).2 hne
      obtain ⟨p, hp, hps, hlt', hfill⟩ := hstale ho hs q hqp hqs hzero fun i h1 h2 =>
        hr.filled i h1 (by omega)
      have hpo := h.mem_out hsub hr ho hs hp hfill
      have hsorted := hr.numbers_sorted
      rw [hl] at hpo hsorted
      rcases List.mem_append.mp hpo with hpl | hpl
      · have := (List.pairwise_append.mp hsorted).2.2 p hpl q List.mem_cons_self
        omega
      · rcases List.mem_cons.mp hpl with rfl | hpl
        · omega
        · rw [hno p hpl] at hps
          cases hps

theorem HighestInv.arrive (h : HighestInv pre s) (hsub : pre.Subperm (sentMessages channel sends))
    (hfit : FitsWeight s.channel m) (hstale : NoStaleHighest s.channel m) :
    HighestInv (pre ++ [m]) (s.arrive m) := by
  refine ⟨h.toPendingInv.arrive hsub hfit, ?_⟩
  rcases Nat.lt_trichotomy m.order s.channel.next with hlt | heq | hgt
  · rw [UnboundedReceiver.arrive_discarded (UnboundedChannel.handle_older hlt) rfl]
    exact h.justified
  · cases hs : m.isSequenced
    · exact h.justified_ordered hsub hstale heq hs
    · by_cases hlt : m.sequence < s.channel.highest
      · rw [UnboundedReceiver.arrive_discarded (UnboundedChannel.handle_late heq hs hlt) rfl]
        exact h.justified
      · simp only [UnboundedReceiver.arrive,
          UnboundedChannel.handle_sequenced heq hs (Nat.le_of_not_lt hlt), Disposition.output]
        exact .inr ⟨m, by simp, hs, heq, Nat.le_refl _⟩
  · obtain ⟨h1, h2, h3, -⟩ := UnboundedChannel.handle_buffered hgt
    simpa only [UnboundedReceiver.arrive, h1, h2, h3, Disposition.output, List.append_nil]
      using h.justified

theorem HighestInv.discardedWithCause (h : HighestInv pre s) (hf : Faithful s.channel m) :
    DiscardedWithCause s.toReceiver m := by
  intro hs hd
  simp only [UnboundedReceiver.toReceiver, UnboundedChannel.handle_toChannel hf] at hd ⊢
  rcases Nat.lt_trichotomy m.order s.channel.next with hlt | heq | hgt
  · exact .inl ((hf.older (by omega)).mpr hlt)
  · by_cases hlt : m.sequence < s.channel.highest
    · rcases h.justified with h0 | ⟨q, hq, hqs, hqo, hle⟩
      · omega
      · exact .inr ⟨q, hq, hqs, by omega, by omega⟩
    · rw [UnboundedChannel.handle_sequenced heq hs (Nat.le_of_not_lt hlt)] at hd
      cases hd
  · rw [(UnboundedChannel.handle_buffered hgt).1] at hd
    cases hd

/-- In every run that leaves no stale sequencing index behind, sequenced messages are
discarded with cause only. -/
theorem sequenced_discarded_with_cause {arrivals : List SentMessage}
    (harrivals : arrivals.Subperm (sentMessages channel sends))
    (hgood : Transition.Along UnboundedReceiver.arrive (fun s m => Faithful s.channel m ∧
      FitsWeight s.channel m ∧ NoStaleHighest s.channel m) .initial arrivals) :
    Transition.Along Receiver.arrive DiscardedWithCause .initial arrivals := by
  have hpre : ∀ pre post, arrivals = pre ++ post → pre.Subperm (sentMessages channel sends) :=
    fun pre post heq => by
      refine List.Sublist.subperm ?_ |>.trans harrivals
      rw [heq]
      exact List.sublist_append_left _ _
  have hinv := Transition.run_prefix HighestInv highestInv_initial fun pre m post heq h =>
      have hf := hgood pre m post heq
      h.arrive (hpre pre (m :: post) heq) hf.2.1 hf.2.2
  have hrun := hgood.simulation_prefix UnboundedReceiver.toReceiver fun s m hf =>
    UnboundedReceiver.arrive_toReceiver hf.1
  intro pre m post heq
  rw [UnboundedReceiver.initial_toReceiver] at hrun
  rw [hrun pre (m :: post) heq]
  exact (hinv pre (m :: post) heq).discardedWithCause (hgood pre m post heq).1

end Run

theorem gapArrivals_discarded_with_cause :
    Transition.Along Receiver.arrive DiscardedWithCause .initial gapArrivals :=
  have hsent : gapArrivals.Subperm (sentMessages 0 mixedSends) := by decide
  sequenced_discarded_with_cause hsent <|
    Transition.along_cons ⟨faithful_of_bounded (by decide) (by decide) (by decide) (by decide)
      (by decide), by decide, by decide⟩ <|
    Transition.along_cons ⟨faithful_of_bounded (by decide) (by decide) (by decide) (by decide)
      (by decide), by decide, by decide⟩ <|
    Transition.along_cons ⟨faithful_of_bounded (by decide) (by decide) (by decide) (by decide)
      (by decide), by decide, by decide⟩ Transition.along_nil

/-- Popping an ordered message off the heap keeps the highest sequencing index of the
ordering index it closes, so that the first sequenced message behind it is discarded. -/
theorem sequenced_discarded_without_cause : ¬ ∀ (channel : ℕ) (sends : List TransmissionHeader)
    (arrivals : List SentMessage), arrivals.Subperm (sentMessages channel sends) →
    Transition.Along Receiver.arrive DiscardedWithCause .initial arrivals := by
  intro h
  let sent := sentMessages 0 mixedSends
  have hlate := h 0 mixedSends ([3, 4, 1, 5].filterMap fun i => sent[i]?) (by decide)
    ([3, 4, 1].filterMap fun i => sent[i]?) (sent.get ⟨5, by decide⟩) []
    (by decide)
  exact absurd hlate (by decide)

end SLikeNet
