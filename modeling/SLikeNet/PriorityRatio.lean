import SLikeNet.SendQueue

/-! How many messages of a priority are sent for one of the next lower priority. -/

namespace SLikeNet

namespace PacketPriority

/-- The next lower priority. -/
def nextLower : PacketPriority → Option PacketPriority
  | immediate => some high
  | high => some medium
  | medium => some low
  | low => none

end PacketPriority

namespace SendQueue

variable {s t : SendQueue} {p q : PacketPriority}

/-- Between two consecutive messages at `q` there are at most two at `p`. -/
def TwoToOne (p q : PacketPriority) (popped : List QueueNode) : Prop :=
  ∀ xs a ys b zs, popped = xs ++ a :: (ys ++ b :: zs) → a.data.priority = q →
    b.data.priority = q → (∀ m ∈ ys, m.data.priority ≠ q) →
      ys.countP (fun m => m.data.priority = p) ≤ 2

/-- What has been popped between `s` and a later state. -/
def poppedSince (s t : SendQueue) : List QueueNode := t.popped.drop s.popped.length

/-- How many further messages at `p` can take a weight of at most `weight`, if the counter is
not rebased. -/
def slots (t : SendQueue) (p : PacketPriority) (weight : ℕ) : ℕ :=
  (weight + p.increment - t.outgoingPacketBufferNextWeights p) / p.increment

/-- The messages at `p` that stand, or can still be pushed, before a weight. -/
def ahead (t : SendQueue) (p : PacketPriority) (weight : ℕ) : ℕ :=
  t.queued.countP (fun m => m.data.priority = p ∧ m.weight ≤ weight) + t.slots p weight

/-- Some message at `q` is queued behind which there is no place for three at `p`. -/
def Spaced (p q : PacketPriority) (t : SendQueue) : Prop :=
  ∃ b ∈ t.queued, b.data.priority = q ∧ t.ahead p b.weight ≤ 2

/-- The condition asked for where a message is popped next after one at `q`. -/
def SpacedAfter (s : SendQueue) (p q : PacketPriority) (t : SendQueue) : Prop :=
  ∀ xs a, poppedSince s t = xs ++ [a] → a.data.priority = q → t.Spaced p q

/-- Those popped since the last one at `q`, and those ahead of a queued one, are at most two. -/
def GapOpen (p q : PacketPriority) (t : SendQueue) (ys : List QueueNode) : Prop :=
  ∃ b ∈ t.queued, b.data.priority = q ∧
    ys.countP (fun m => m.data.priority = p) + t.ahead p b.weight ≤ 2

theorem slots_push {w : ℕ} (hle : t.outgoingPacketBufferNextWeights p ≤ w) {u : SendQueue}
    (hu : u.outgoingPacketBufferNextWeights p = w + p.increment) (weight : ℕ) :
    (if w ≤ weight then 1 else 0) + u.slots p weight ≤ t.slots p weight := by
  obtain ⟨-, -, hpos, -, -⟩ := p.level_bounds
  unfold slots
  rw [hu, Nat.add_sub_add_right]
  split
  · rename_i hw
    have hstep : (weight - w + p.increment) / p.increment = (weight - w) / p.increment + 1 :=
      Nat.add_div_right _ hpos
    have hmono : (weight - w + p.increment) / p.increment ≤
        (weight + p.increment - t.outgoingPacketBufferNextWeights p) / p.increment :=
      Nat.div_le_div_right (by omega)
    omega
  · rename_i hw
    rw [Nat.sub_eq_zero_of_le (by omega), Nat.zero_div]
    exact Nat.zero_le _

theorem ahead_pushMessage
    {push : Heap ℕ QueuedMessage false → ℕ → QueuedMessage → Heap ℕ QueuedMessage false}
    (hpush : ∀ h weight data, (push h weight data).heap.Perm (⟨weight, data⟩ :: h.heap))
    (hsound : t.Sound) (hroom : t.HasRoom 1) (hne : t.queued ≠ []) (p' : PacketPriority)
    (weight : ℕ) : (t.pushMessage push p').ahead p weight ≤ t.ahead p weight := by
  obtain ⟨r, hr⟩ := Option.isSome_iff_exists.mp (List.isSome_head?.mpr hne)
  obtain ⟨w, hw, hle, -⟩ := getNextWeight_cons hsound hroom hr p'
  have hperm : (t.pushMessage push p').queued.Perm (⟨w, ⟨p', t.pushed⟩⟩ :: t.queued) := by
    have hperm := hpush t.outgoingPacketBuffer (t.getNextWeight p').1 ⟨p', t.pushed⟩
    rw [hw] at hperm
    rw [pushMessage, hw]
    exact hperm
  have hnext : (t.pushMessage push p').outgoingPacketBufferNextWeights =
      Function.update t.outgoingPacketBufferNextWeights p' (w + p'.increment) :=
    congrArg Prod.snd hw
  unfold ahead
  rw [hperm.countP_eq, List.countP_cons]
  by_cases hp : p' = p
  · subst hp
    have hself : (t.pushMessage push p').outgoingPacketBufferNextWeights p' = w + p'.increment := by
      rw [hnext, Function.update_self]
    have hslots := slots_push hle hself weight
    simp only [true_and, decide_eq_true_eq]
    omega
  · have hslots : (t.pushMessage push p').slots p weight = t.slots p weight := by
      unfold slots
      rw [hnext, Function.update_of_ne (Ne.symm hp)]
    rw [hslots]
    simp only [hp, false_and, decide_false, Bool.false_eq_true, if_false, Nat.add_zero, Nat.le_refl]

theorem GapOpen.pop {ys : List QueueNode} (h : GapOpen p q t ys) (hwell : t.WellWeighted)
    {r : QueueNode} (hr : t.queued.head? = some r) (hne : r.data.priority ≠ q) :
    GapOpen p q t.pop (ys ++ [r]) := by
  obtain ⟨b, hb, hbq, hcount⟩ := h
  obtain ⟨hperm, -, hnext, -, -⟩ := pop_spec hr
  have hle : r.weight ≤ b.weight := before_eq_false.mp (hwell.ordered.head_le hr hb)
  refine ⟨b, ?_, hbq, ?_⟩
  · rcases List.mem_cons.mp (hperm.mem_iff.mp hb) with rfl | hb
    · exact absurd hbq hne
    · exact hb
  · have hslots : t.pop.slots p b.weight = t.slots p b.weight := by
      unfold slots
      rw [hnext]
    unfold ahead at hcount ⊢
    rw [hperm.countP_eq, List.countP_cons] at hcount
    rw [hslots, List.countP_append, List.countP_singleton]
    simp only [hle, and_true, decide_eq_true_eq] at hcount ⊢
    omega

/-- The ratio has held so far, and the current gap leaves room for two at most. -/
structure Rationed (s : SendQueue) (p q : PacketPriority) (t : SendQueue) : Prop where
  length_le : s.popped.length ≤ t.popped.length
  ratio : TwoToOne p q (poppedSince s t)
  gap : ∀ xs a ys, poppedSince s t = xs ++ a :: ys → a.data.priority = q →
    (∀ m ∈ ys, m.data.priority ≠ q) → ys = [] ∨ GapOpen p q t ys

theorem Rationed.pushMessage
    {push : Heap ℕ QueuedMessage false → ℕ → QueuedMessage → Heap ℕ QueuedMessage false}
    (hpush : ∀ h weight data, (push h weight data).heap.Perm (⟨weight, data⟩ :: h.heap))
    (h : Rationed s p q t) (hsound : t.Sound) (hroom : t.HasRoom 1) (p' : PacketPriority) :
    Rationed s p q (t.pushMessage push p') := by
  refine ⟨h.length_le, h.ratio, ?_⟩
  intro xs a ys hsplit ha hys
  rcases h.gap xs a ys hsplit ha hys with hnil | ⟨b, hb, hbq, hcount⟩
  · exact .inl hnil
  · have hperm : (t.pushMessage push p').queued.Perm
        (⟨(t.getNextWeight p').1, ⟨p', t.pushed⟩⟩ :: t.queued) := hpush _ _ _
    have hle := ahead_pushMessage (p := p) hpush hsound hroom (List.ne_nil_of_mem hb) p' b.weight
    refine .inr ⟨b, hperm.mem_iff.mpr (List.mem_cons_of_mem _ hb), hbq, ?_⟩
    omega

theorem Rationed.pop (h : Rationed s p q t) (hwell : t.WellWeighted) {r : QueueNode}
    (hr : t.queued.head? = some r) (hspaced : SpacedAfter s p q t) : Rationed s p q t.pop := by
  obtain ⟨-, hpopped, -, -, -⟩ := pop_spec hr
  have hsince : poppedSince s t.pop = poppedSince s t ++ [r] := by
    rw [poppedSince, hpopped, List.drop_append_of_le_length h.length_le]
    rfl
  have hgap : ∀ xs a ys, poppedSince s t = xs ++ a :: ys → a.data.priority = q →
      (∀ m ∈ ys, m.data.priority ≠ q) → ys = [] ∧ t.Spaced p q ∨ GapOpen p q t ys := by
    intro xs a ys hsplit ha hys
    rcases h.gap xs a ys hsplit ha hys with rfl | hopen
    · exact .inl ⟨rfl, hspaced xs a hsplit ha⟩
    · exact .inr hopen
  constructor
  · rw [hpopped, List.length_append]
    exact Nat.le_add_right_of_le h.length_le
  · intro xs a ys b zs hsplit ha hb hys
    rw [hsince] at hsplit
    induction zs using List.reverseRecOn with
    | nil =>
      rw [← List.cons_append, ← List.append_assoc] at hsplit
      obtain ⟨hsplit, -⟩ := List.append_inj' hsplit rfl
      rcases hgap xs a ys hsplit ha hys with ⟨rfl, -⟩ | ⟨b', -, -, hcount⟩
      · exact Nat.zero_le _
      · omega
    | append_singleton zs c _ =>
      have hcut : xs ++ a :: (ys ++ b :: (zs ++ [c])) = (xs ++ a :: (ys ++ b :: zs)) ++ [c] := by
        simp
      rw [hcut] at hsplit
      obtain ⟨hsplit, -⟩ := List.append_inj' hsplit rfl
      exact h.ratio xs a ys b zs hsplit ha hb hys
  · intro xs a ys hsplit ha hys
    rw [hsince] at hsplit
    induction ys using List.reverseRecOn with
    | nil => exact .inl rfl
    | append_singleton ys c _ =>
      rw [← List.cons_append, ← List.append_assoc] at hsplit
      obtain ⟨hcut, hlast⟩ := List.append_inj' hsplit rfl
      obtain rfl := (List.cons.inj hlast).1
      have hr' : r.data.priority ≠ q := hys r (by simp)
      right
      rcases hgap xs a ys hcut ha (fun m hm => hys m (by simp [hm])) with ⟨rfl, hspaced⟩ | hopen
      · obtain ⟨b, hb, hbq, hcount⟩ := hspaced
        have hopen : GapOpen p q t [] := ⟨b, hb, hbq, by simpa using hcount⟩
        exact hopen.pop hwell hr hr'
      · exact hopen.pop hwell hr hr'

theorem rationed_kept (s : SendQueue) (p q : PacketPriority) :
    Kept (SpacedAfter s p q) (Rationed s p q) where
  push _ hpush _ p' hsound hroom h := h.pushMessage hpush hsound hroom p'
  startSeries _ h := ⟨h.length_le, h.ratio, h.gap⟩
  pop _ _ hwell hr hspaced h := h.pop hwell hr hspaced

/-- In an interval in which every pop after one at the lower priority finds the next one spaced,
at most two messages are popped for one of the next lower priority. -/
theorem two_to_one {before interval : List QueueInput} {p q : PacketPriority}
    (hbefore : Transition.Along step (Fits fun _ => True) initial before)
    (hinterval : Transition.Along step (Fits (SpacedAfter (before.foldl step initial) p q))
      (before.foldl step initial) interval) :
    TwoToOne p q (poppedSince (before.foldl step initial)
      (interval.foldl step (before.foldl step initial))) := by
  have hwell := (run_induction (counted_kept _) hbefore initial_wellWeighted initial_counted).1
  generalize before.foldl step initial = s at *
  have hstart : Rationed s p q s := by
    have hnil : poppedSince s s = [] := List.drop_length
    refine ⟨Nat.le_refl _, ?_, ?_⟩
    · intro xs a ys b zs hsplit
      rw [hnil] at hsplit
      simp at hsplit
    · intro xs a ys hsplit
      rw [hnil] at hsplit
      simp at hsplit
  exact (run_induction (rationed_kept s p q) hinterval hwell hstart).2.ratio

theorem immediate_two_to_one :
    TwoToOne .immediate .high
      (poppedSince ([QueueInput.send .high, .send .high, .send .immediate].foldl step initial)
        ([QueueInput.pop, .pop, .pop].foldl step
          ([QueueInput.send .high, .send .high, .send .immediate].foldl step initial))) := by
  have hfits : ∀ {good s i inputs}, Fits good s i →
      Transition.Along step (Fits good) (step s i) inputs →
      Transition.Along step (Fits good) s (i :: inputs) := Transition.along_cons
  apply two_to_one
  · refine hfits ⟨⟨?_, by decide⟩, nofun⟩ (hfits ⟨⟨?_, by decide⟩, nofun⟩
      (hfits ⟨⟨?_, by decide⟩, nofun⟩ Transition.along_nil))
    · intro p
      cases p <;> decide
    · intro p
      cases p <;> decide
    · intro p
      cases p <;> decide
  · refine hfits ⟨⟨?_, by decide⟩, fun _ _ _ _ _ => ?_⟩
      (hfits ⟨⟨?_, by decide⟩, fun _ _ _ _ _ => ?_⟩
        (hfits ⟨⟨?_, by decide⟩, fun _ _ _ _ _ => ?_⟩ Transition.along_nil))
    · intro p
      cases p <;> decide
    · exact ⟨⟨3, ⟨.high, 1⟩⟩, by decide, rfl, by decide⟩
    · intro p
      cases p <;> decide
    · exact ⟨⟨3, ⟨.high, 1⟩⟩, by decide, rfl, by decide⟩
    · intro p
      cases p <;> decide
    · exact ⟨⟨3, ⟨.high, 1⟩⟩, by decide, rfl, by decide⟩

/-- Messages at `p` and at `q` are queued in every state of the interval. -/
def Backlogged (p q : PacketPriority) (s : SendQueue) (interval : List QueueInput) : Prop :=
  ∀ k ≤ interval.length, (∃ n ∈ ((interval.take k).foldl step s).queued, n.data.priority = p) ∧
    ∃ n ∈ ((interval.take k).foldl step s).queued, n.data.priority = q

/-- Four messages at `HIGH_PRIORITY` and twelve at `IMMEDIATE_PRIORITY`. -/
def backlog : List QueueInput :=
  [.send .high, .send .high, .send .high, .send .high, .splitPacket .immediate 12]

/-- Between the second and the third message at `HIGH_PRIORITY` four at `IMMEDIATE_PRIORITY`
are sent. -/
theorem four_to_one :
    ¬ ∀ p q : PacketPriority, p.nextLower = some q → ∀ before interval : List QueueInput,
      Backlogged p q (before.foldl step initial) interval →
        TwoToOne p q (poppedSince (before.foldl step initial)
          (interval.foldl step (before.foldl step initial))) := by
  intro hclaim
  have hbacklogged : Backlogged .immediate .high (backlog.foldl step initial)
      (List.replicate 9 .pop) := by
    unfold Backlogged
    decide
  have hratio := hclaim .immediate .high rfl backlog (List.replicate 9 .pop) hbacklogged
  have hpopped : poppedSince (backlog.foldl step initial)
      ((List.replicate 9 QueueInput.pop).foldl step (backlog.foldl step initial)) =
      [⟨2, ⟨.immediate, 4⟩⟩, ⟨3, ⟨.immediate, 5⟩⟩, ⟨3, ⟨.high, 0⟩⟩] ++ ⟨3, ⟨.high, 1⟩⟩ ::
        ([⟨4, ⟨.immediate, 6⟩⟩, ⟨5, ⟨.immediate, 7⟩⟩, ⟨6, ⟨.immediate, 8⟩⟩,
          ⟨7, ⟨.immediate, 9⟩⟩] ++ ⟨8, ⟨.high, 2⟩⟩ :: []) := by
    decide
  exact absurd (hratio _ _ _ _ _ hpopped rfl rfl (by decide)) (by decide)


end SendQueue

end SLikeNet
