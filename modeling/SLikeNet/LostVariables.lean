import SLikeNet.AckedUpdates
import SLikeNet.Library.Transition

/-! What an update wrote that was lost is written by the next update, where no change of size
clears the flag of the variable behind. -/

namespace SLikeNet

open VariableListDeltaTracker

/-! ### Runs -/

namespace AckedEvent

open VariableDeltaSerializer

/-- After the events, the update wrote the variable. -/
def Writes (guid : RakNetGUID) (events : List AckedEvent) (u : AckedUpdate) (i : ℕ) : Prop :=
  ∃ bitStream, sentAfter guid events u = some bitStream ∧ WritesVariable bitStream u.vars i

/-- An update with this receipt wrote the variable, and nothing was heard of it since. -/
def Unresolved (guid : RakNetGUID) (events : List AckedEvent) (receipt : UInt32) (i : ℕ) : Prop :=
  ∃ before u after, events = before ++ .update u :: after ∧ u.sendReceipt = receipt ∧
    (∀ arrived, .receipt receipt arrived ∉ after) ∧ Writes guid before u i

/-- An update that wrote the variable was lost, and no update since then has written it. -/
def Lost (guid : RakNetGUID) (events : List AckedEvent) (i : ℕ) : Prop :=
  ∃ before receipt after, events = before ++ .receipt receipt false :: after ∧
    Unresolved guid before receipt i ∧
    ∀ pre u post, after = pre ++ .update u :: post →
      ¬ Writes guid (before ++ .receipt receipt false :: pre) u i

/-- The receipts of the updates. -/
def receipts (events : List AckedEvent) : List UInt32 :=
  events.filterMap fun
    | .update u => some u.sendReceipt
    | .receipt _ _ => none

theorem unresolved_append {guid : RakNetGUID} {events : List AckedEvent} {event : AckedEvent}
    {receipt : UInt32} {i : ℕ} (h : Unresolved guid (events ++ [event]) receipt i) :
    (∃ u, event = .update u ∧ u.sendReceipt = receipt ∧ Writes guid events u i) ∨
      (Unresolved guid events receipt i ∧ ∀ arrived, event ≠ .receipt receipt arrived) := by
  obtain ⟨before, u, after, heq, hreceipt, hnone, hwrites⟩ := h
  induction after using List.reverseRecOn with
  | nil =>
    obtain ⟨rfl, hlast⟩ := List.append_inj' heq rfl
    exact Or.inl ⟨u, by simpa using hlast, hreceipt, hwrites⟩
  | append_singleton after last _ =>
    rw [← List.cons_append, ← List.append_assoc] at heq
    obtain ⟨rfl, hlast⟩ := List.append_inj' heq rfl
    obtain rfl : event = last := by simpa using hlast
    refine Or.inr ⟨⟨before, u, after, rfl, hreceipt, ?_, hwrites⟩, ?_⟩
    · exact fun arrived hmem => hnone arrived (List.mem_append_left _ hmem)
    · rintro arrived rfl
      exact hnone arrived (by simp)

theorem lost_append {guid : RakNetGUID} {events : List AckedEvent} {event : AckedEvent} {i : ℕ}
    (h : Lost guid (events ++ [event]) i) :
    (∃ receipt, event = .receipt receipt false ∧ Unresolved guid events receipt i) ∨
      (Lost guid events i ∧ ∀ u, event = .update u → ¬ Writes guid events u i) := by
  obtain ⟨before, receipt, after, heq, hunresolved, hnone⟩ := h
  induction after using List.reverseRecOn with
  | nil =>
    obtain ⟨rfl, hlast⟩ := List.append_inj' heq rfl
    exact Or.inl ⟨receipt, by simpa using hlast, hunresolved⟩
  | append_singleton after last _ =>
    rw [← List.cons_append, ← List.append_assoc] at heq
    obtain ⟨rfl, hlast⟩ := List.append_inj' heq rfl
    obtain rfl : event = last := by simpa using hlast
    refine Or.inr ⟨⟨before, receipt, after, rfl, hunresolved, ?_⟩, ?_⟩
    · rintro pre u post rfl
      exact hnone pre u (post ++ [event]) (by simp)
    · rintro u rfl
      exact hnone after u [] rfl

end AckedEvent

namespace VariableDeltaSerializer

open AckedEvent RemoteSystemVariableHistory

/-- What a run knows of the variables: what is unresolved is in the history, what was lost is
dirty. -/
def Knows (guid : RakNetGUID) (n : ℕ) (events : List AckedEvent)
    (state : Option VariableDeltaSerializer) : Prop :=
  ∃ s history, state = some s ∧ s.HasHistory guid history ∧ history.WellFormed n ∧
    (∀ c ∈ history.updatedVariablesHistory, c.sendReceipt ∈ receipts events) ∧
    (∀ receipt i, Unresolved guid events receipt i → history.Recorded receipt i ∧
      i < history.variableListDeltaTracker.variableList.length) ∧
    ∀ i, Lost guid events i → history.Dirty i

theorem writesVariable_iff {bitStream flags : List Bool} {vars : List Serialization} {i : ℕ}
    (hpos : 0 < vars.length) (hlen : flags.length = vars.length)
    (h : bitStream = layout [] flags vars ∨ bitStream = [] ∧ flags.any id = false) :
    WritesVariable bitStream vars i ↔ flags[i]? = some true := by
  rcases h with rfl | ⟨rfl, hany⟩
  · constructor
    · rintro ⟨flags', hlen', heq, hflag⟩
      rwa [layout_injective hlen hlen' heq]
    · exact fun hflag => ⟨flags, hlen, rfl, hflag⟩
  · constructor
    · rintro ⟨flags', hlen', heq, -⟩
      -- A stream with flags in it is not empty.
      rcases vars with _ | ⟨varData, rest⟩
      · simp at hpos
      rcases flags' with _ | ⟨flag, flags'⟩
      · simp at hlen'
      have hprefix := flag_prefix_layout [] flags' flag varData rest
      rw [← heq] at hprefix
      simp at hprefix
    · intro hflag
      have htrue : flags.any id = true :=
        List.any_eq_true.mpr ⟨true, List.mem_of_getElem? hflag, rfl⟩
      rw [hany] at htrue
      exact absurd htrue (by simp)

theorem knows_step {guid : RakNetGUID} {n : ℕ} (hpos : 0 < n) {events : List AckedEvent}
    {event : AckedEvent}
    (hstate : Knows guid n events (events.foldl (ackedStep guid) (some new)))
    (hgood : KeepsFlags guid (events.foldl (ackedStep guid) (some new)) event)
    (hsize : ∀ u, event = .update u → u.vars.length = n)
    (hfresh : ∀ u, event = .update u → u.sendReceipt ∉ receipts events) :
    Knows guid n (events ++ [event])
      (ackedStep guid (events.foldl (ackedStep guid) (some new)) event) := by
  obtain ⟨s, history, hs, hhistory, hwf, hreceipts, hunresolved, hlost⟩ := hstate
  rw [hs] at hgood ⊢
  cases event with
  | update u =>
    obtain ⟨s', bitStream, history', flags, hupdate, hhistory', hwf', hflags, hnodes, hstream,
      hdirty, hwritten, hrecorded, hmem⟩ := unreliableAckedUpdate_spec hhistory hwf (hsize u rfl) hpos hgood
        (fun c hc heq => hfresh u rfl (heq ▸ hreceipts c hc))
    have hwrites : ∀ i, Writes guid events u i ↔ flags[i]? = some true := by
      intro i
      rw [← writesVariable_iff (by rw [hsize u rfl]; exact hpos) (by rw [hflags, hsize u rfl]) hstream]
      simp [Writes, sentAfter, hs, hupdate]
    refine ⟨s', history', by simp [ackedStep, hupdate], hhistory', hwf', ?_, ?_, ?_⟩
    · intro c hc
      rcases hmem c hc with heq | hc
      · simp [receipts, heq]
      · have hold := hreceipts c hc
        rw [receipts] at hold ⊢
        rw [List.filterMap_append]
        exact List.mem_append_left _ hold
    · intro receipt i h
      rcases unresolved_append h with ⟨u', heq, rfl, hw⟩ | ⟨h, -⟩
      · obtain rfl : u = u' := by simpa using heq
        have hflag := (hwrites i).mp hw
        refine ⟨hwritten i hflag, ?_⟩
        rw [hnodes, ← hflags]
        exact (List.getElem?_eq_some_iff.mp hflag).1
      · obtain ⟨hrec, hi⟩ := hunresolved receipt i h
        refine ⟨hrecorded receipt i hrec, ?_⟩
        rw [hnodes]
        rcases hwf.size with hnil | hsize
        · simp [hnil] at hi
        · rwa [hsize] at hi
    · intro i h
      rcases lost_append h with ⟨receipt, heq, -⟩ | ⟨h, hnot⟩
      · simp at heq
      · exact absurd ((hwrites i).mpr (hdirty i (hlost i h))) (hnot u rfl)
  | receipt receiptId messageArrived =>
    obtain ⟨history', hreceipt, hguid, hwf', hlength, hsubset, hrecorded, hdirty, hnew⟩ :=
      onMessageReceipt_spec hwf receiptId messageArrived
    obtain ⟨s', hs', hhistory'⟩ := onMessageReceipt_hasHistory hhistory hreceipt hguid
    refine ⟨s', history', hs', hhistory', hwf', ?_, ?_, ?_⟩
    · intro c hc
      have hold := hreceipts c (hsubset hc)
      rw [receipts] at hold ⊢
      rw [List.filterMap_append]
      exact List.mem_append_left _ hold
    · intro receipt i h
      rcases unresolved_append h with ⟨u, heq, -⟩ | ⟨h, hne⟩
      · simp at heq
      · obtain ⟨hrec, hi⟩ := hunresolved receipt i h
        refine ⟨hrecorded receipt i ?_ hrec, by rwa [hlength]⟩
        rintro rfl
        exact hne messageArrived rfl
    · intro i h
      rcases lost_append h with ⟨receipt, heq, hopen⟩ | ⟨h, -⟩
      · obtain ⟨rfl, rfl⟩ := AckedEvent.receipt.inj heq
        obtain ⟨hrec, hi⟩ := hunresolved receiptId i hopen
        exact hnew i rfl hrec hi
      · exact hdirty i (hlost i h)

theorem knows_run {guid : RakNetGUID} {n : ℕ} (hpos : 0 < n) {events : List AckedEvent}
    (hsize : ∀ u, .update u ∈ events → u.vars.length = n) (hreceipts : (receipts events).Nodup)
    (hgood : Transition.Along (ackedStep guid) (KeepsFlags guid) (some new) events) :
    ∀ pre post, events = pre ++ post →
      Knows guid n pre (pre.foldl (ackedStep guid) (some new)) := by
  refine Transition.run_prefix (Knows guid n) ?_ ?_
  · refine ⟨new, .new guid, rfl, ⟨rfl, Or.inr ⟨rfl, rfl⟩⟩, wellFormed_new n guid,
      fun c hc => absurd hc List.not_mem_nil, ?_, ?_⟩
    · rintro receipt i ⟨before, u, after, heq, -⟩
      simp at heq
    · rintro i ⟨before, receipt, after, heq, -⟩
      simp at heq
  · intro pre event post heq hknows
    refine knows_step hpos hknows (hgood pre event post heq) ?_ ?_
    · rintro u rfl
      exact hsize u (by simp [heq])
    · rintro u rfl hmem
      rw [heq, receipts, List.filterMap_append, List.nodup_append] at hreceipts
      exact hreceipts.2.2 _ hmem u.sendReceipt (by simp) rfl

/-- What an update wrote that was lost is written by the next update. -/
theorem lost_variables_resent (guid : RakNetGUID) (n : ℕ) (events : List AckedEvent)
    (hsize : ∀ u, .update u ∈ events → u.vars.length = n) (hreceipts : (receipts events).Nodup)
    (hgood : Transition.Along (ackedStep guid) (KeepsFlags guid) (some new) events)
    {pre post : List AckedEvent} {u : AckedUpdate} (heq : events = pre ++ .update u :: post) {i : ℕ}
    (hlost : Lost guid pre i) : Writes guid pre u i := by
  have hu : u.vars.length = n := hsize u (by simp [heq])
  rcases Nat.eq_zero_or_pos n with hzero | hpos
  · -- Without variables no update writes any.
    obtain ⟨before, receipt, after, rfl, ⟨before', u', after', rfl, -, -, -, -, flags, hflags, -,
      hflag⟩, -⟩ := hlost
    have hu' : u'.vars.length = n := hsize u' (by simp [heq])
    rw [List.length_eq_zero_iff.mp (hflags.trans (hu'.trans hzero))] at hflag
    simp at hflag
  obtain ⟨s, history, hs, hhistory, hwf, hknown, -, hdirty⟩ :=
    knows_run hpos hsize hreceipts hgood pre _ heq
  have hstep := hgood pre _ post heq
  rw [hs] at hstep
  have hfresh : ∀ c ∈ history.updatedVariablesHistory, c.sendReceipt ≠ u.sendReceipt := by
    intro c hc hsame
    have hmem := hknown c hc
    rw [heq, receipts, List.filterMap_append, List.nodup_append] at hreceipts
    exact hreceipts.2.2 _ hmem u.sendReceipt (by simp) hsame
  obtain ⟨s', bitStream, history', flags, hupdate, -, -, hflags, -, hstream, hwritten, -⟩ :=
    unreliableAckedUpdate_spec hhistory hwf hu hpos hstep hfresh
  refine ⟨bitStream, by simp [sentAfter, hs, hupdate], ?_⟩
  rw [writesVariable_iff (by omega) (by omega) hstream]
  exact hwritten i (hdirty i hlost)

/-- An update of variables that write so many zero bytes each. -/
def zeroBytes (sendReceipt : UInt32) (sizes : List ℕ) : AckedUpdate where
  sendReceipt := sendReceipt
  vars := sizes.map fun size => ⟨fun _ => List.replicate (size * 8) false⟩
  context := ⟨.unassigned, [], 0, none, none, ⟨0, 0, fun _ => 0⟩, 0, .reliable, false, false⟩
  memory := ⟨0, 0, fun _ => 0⟩

/-- Two variables are lost and written again with the next update. -/
theorem two_variables_resent :
    Writes ⟨7⟩ [.update (zeroBytes 1 [1, 2]), .receipt 1 false] (zeroBytes 2 [1, 2]) 1 := by
  refine lost_variables_resent ⟨7⟩ 2
    [.update (zeroBytes 1 [1, 2]), .receipt 1 false, .update (zeroBytes 2 [1, 2])] ?_
    (by decide) ?_ rfl ⟨[.update (zeroBytes 1 [1, 2])], 1, [], rfl, ?_, ?_⟩
  · intro u hu
    simp at hu
    rcases hu with rfl | rfl <;> rfl
  · decide +kernel
  · refine ⟨[], zeroBytes 1 [1, 2], [], rfl, rfl, by simp, ?_⟩
    refine ⟨layout [] [true, true] (zeroBytes 1 [1, 2]).vars, by decide +kernel, ?_⟩
    exact ⟨[true, true], rfl, rfl, rfl⟩
  · simp

/-- The first variable gets another size when both have been lost: the second is not written. -/
theorem size_change_drops_variable :
    ¬ ∀ (guid : RakNetGUID) (n : ℕ) (events pre post : List AckedEvent) (u : AckedUpdate) (i : ℕ),
      (∀ u, .update u ∈ events → u.vars.length = n) → (receipts events).Nodup →
      events = pre ++ .update u :: post → Lost guid pre i → Writes guid pre u i := by
  intro hclaim
  have hwrites := hclaim ⟨7⟩ 2
    [.update (zeroBytes 1 [1, 2]), .receipt 1 false, .update (zeroBytes 2 [3, 2])]
    [.update (zeroBytes 1 [1, 2]), .receipt 1 false] [] (zeroBytes 2 [3, 2]) 1
    (by
      intro u hu
      simp at hu
      rcases hu with rfl | rfl <;> rfl)
    (by decide) rfl
    ⟨[.update (zeroBytes 1 [1, 2])], 1, [], rfl,
      ⟨[], zeroBytes 1 [1, 2], [], rfl, rfl, by simp,
        layout [] [true, true] (zeroBytes 1 [1, 2]).vars, by decide +kernel,
        [true, true], rfl, rfl, rfl⟩, by simp⟩
  obtain ⟨bitStream, hsent, hvariable⟩ := hwrites
  have hstream : sentAfter ⟨7⟩ [.update (zeroBytes 1 [1, 2]), .receipt 1 false]
      (zeroBytes 2 [3, 2]) = some (layout [] [true, false] (zeroBytes 2 [3, 2]).vars) := by
    decide +kernel
  rw [hstream] at hsent
  rw [writesVariable_iff (by decide) rfl (Or.inl (Option.some.inj hsent).symm)] at hvariable
  simp at hvariable

end VariableDeltaSerializer

end SLikeNet
