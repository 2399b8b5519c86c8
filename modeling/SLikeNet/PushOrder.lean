import SLikeNet.SendQueue

/-! Whether the messages of one priority leave the send queue in the order in which they were
pushed. -/

namespace SLikeNet

namespace SendQueue

/-- No message has been popped before an earlier one of its priority. -/
def PoppedInPushOrder (s : SendQueue) : Prop :=
  s.popped.Pairwise fun a b => a.data.priority = b.data.priority → a.data.number < b.data.number

/-- Of two queued messages of one priority the earlier one is lighter, or it is the head. -/
def EarlierFirst (s : SendQueue) : Prop :=
  ∀ a ∈ s.queued, ∀ b ∈ s.queued, a.data.priority = b.data.priority →
    a.data.number < b.data.number →
      a.weight < b.weight ∨ a.weight = b.weight ∧ s.queued.head? = some a

/-- What has been popped came before what is queued. -/
structure Numbered (s : SendQueue) : Prop extends s.Counted where
  nodup : (s.queued.map fun n => n.data.number).Nodup
  inOrder : s.PoppedInPushOrder
  left : ∀ a ∈ s.popped, ∀ b ∈ s.queued, a.data.priority = b.data.priority →
    a.data.number < b.data.number

theorem Numbered.pushMessage
    {push : Heap ℕ QueuedMessage false → ℕ → QueuedMessage → Heap ℕ QueuedMessage false}
    (hpush : ∀ h weight data, (push h weight data).heap.Perm (⟨weight, data⟩ :: h.heap))
    {s : SendQueue} (h : s.Numbered) (p : PacketPriority) :
    (s.pushMessage push p).Numbered := by
  have hperm : (s.pushMessage push p).queued.Perm
      (⟨(s.getNextWeight p).1, ⟨p, s.pushed⟩⟩ :: s.queued) := hpush _ _ _
  refine ⟨h.toCounted.pushMessage hpush p, ?_, ?_, ?_⟩
  · apply ((hperm.map _).nodup_iff).mpr
    rw [List.map_cons, List.nodup_cons]
    refine ⟨?_, h.nodup⟩
    intro hmem
    obtain ⟨n, hn, heq⟩ := List.mem_map.mp hmem
    exact Nat.ne_of_lt (h.queued_lt n hn) heq
  · exact h.inOrder
  · intro a ha b hb hpriority
    rcases List.mem_cons.mp (hperm.mem_iff.mp hb) with rfl | hb
    · exact h.popped_lt a ha
    · exact h.left a ha b hb hpriority

theorem Numbered.pop {s : SendQueue} (h : s.Numbered) (hwell : s.WellWeighted) {r : QueueNode}
    (hr : s.queued.head? = some r) (hfirst : s.EarlierFirst) : s.pop.Numbered := by
  obtain ⟨hperm, hpopped, -, -, -⟩ := pop_spec hr
  have hmem : r ∈ s.queued := List.mem_of_head? hr
  have hqueued : ∀ n ∈ s.pop.queued, n ∈ s.queued :=
    fun n hn => hperm.mem_iff.mpr (List.mem_cons_of_mem r hn)
  have hnodup := (hperm.map fun n => n.data.number).nodup_iff.mp h.nodup
  rw [List.map_cons, List.nodup_cons] at hnodup
  have hnext : ∀ b ∈ s.pop.queued, r.data.priority = b.data.priority →
      r.data.number < b.data.number := by
    intro b hb hpriority
    rcases Nat.lt_trichotomy r.data.number b.data.number with hlt | heq | hgt
    · exact hlt
    · exact absurd (heq ▸ List.mem_map_of_mem hb) hnodup.1
    · -- an earlier message would be lighter than the head
      exfalso
      have hle : r.weight ≤ b.weight :=
        before_eq_false.mp (hwell.ordered.head_le hr (hqueued b hb))
      rcases hfirst b (hqueued b hb) r hmem hpriority.symm hgt with hweight | ⟨-, hhead⟩
      · omega
      · obtain rfl : r = b := Option.some.inj (hr.symm.trans hhead)
        omega
  refine ⟨h.toCounted.pop hr, ?_, ?_, ?_⟩
  · exact hnodup.2
  · show s.pop.popped.Pairwise _
    rw [hpopped]
    apply List.pairwise_append.mpr
    refine ⟨h.inOrder, List.pairwise_singleton _ _, ?_⟩
    intro a ha b hb
    rw [List.mem_singleton.mp hb]
    exact h.left a ha r hmem
  · intro a ha b hb
    rw [hpopped] at ha
    rcases List.mem_append.mp ha with ha | ha
    · exact h.left a ha b (hqueued b hb)
    · rw [List.mem_singleton.mp ha]
      exact hnext b hb

theorem numbered_kept : Kept EarlierFirst Numbered where
  push _ hpush _ p _ _ h := h.pushMessage hpush p
  startSeries _ h := ⟨⟨h.popped_lt, h.queued_lt⟩, h.nodup, h.inOrder, h.left⟩
  pop _ _ hwell hr hfirst h := h.pop hwell hr hfirst

theorem initial_numbered : initial.Numbered where
  toCounted := initial_counted
  nodup := List.nodup_nil
  inOrder := List.Pairwise.nil
  left n hn := by cases hn

/-- In a run that pops only where every earlier message of a priority is lighter than the later
ones or the head of the queue, the messages of each priority leave in the order of the pushes. -/
theorem popped_in_push_order {inputs : List QueueInput}
    (hrun : Transition.Along step (Fits EarlierFirst) initial inputs) :
    (inputs.foldl step initial).PoppedInPushOrder :=
  (run_induction numbered_kept hrun initial_wellWeighted initial_numbered).2.inOrder

/-- Two messages with equal weights, the earlier one at the head. -/
theorem tie_popped_in_push_order :
    ([QueueInput.send .high, .send .high, .pop, .pop].foldl step initial).PoppedInPushOrder := by
  apply popped_in_push_order
  have hfits : ∀ {s i inputs}, Fits EarlierFirst s i →
      Transition.Along step (Fits EarlierFirst) (step s i) inputs →
      Transition.Along step (Fits EarlierFirst) s (i :: inputs) := Transition.along_cons
  refine hfits ⟨⟨?_, by decide⟩, nofun⟩ (hfits ⟨⟨?_, by decide⟩, nofun⟩
    (hfits ⟨⟨?_, by decide⟩, fun _ => ?_⟩ (hfits ⟨⟨?_, by decide⟩, fun _ => ?_⟩
      Transition.along_nil)))
  · intro p
    cases p <;> decide
  · intro p
    cases p <;> decide
  · intro p
    cases p <;> decide
  · unfold EarlierFirst
    decide
  · intro p
    cases p <;> decide
  · unfold EarlierFirst
    decide

/-- The counters are reset after the first message has taken its weight, so the third message
gets it too, and the fourth one brings the heap into a shape that returns it before the first. -/
theorem not_popped_in_push_order :
    ¬ ∀ inputs : List QueueInput, (inputs.foldl step initial).PoppedInPushOrder := by
  intro h
  have hinputs := h [.send .high, .send .immediate, .send .high, .send .low, .pop, .pop, .pop]
  have hpopped : ([QueueInput.send .high, .send .immediate, .send .high, .send .low, .pop, .pop,
      .pop].foldl step initial).popped =
      [⟨2, ⟨.immediate, 1⟩⟩, ⟨3, ⟨.high, 2⟩⟩, ⟨3, ⟨.high, 0⟩⟩] := by
    decide
  rw [PoppedInPushOrder, hpopped] at hinputs
  exact absurd hinputs (by decide)

end SendQueue

end SLikeNet
