import SLikeNet.CloudServerStore

/-! What one key of a `CloudServer` says of its uploads and subscriptions, and what the parts of
the operations do to it. -/

namespace SLikeNet

open CloudServer

variable {Key Guid : Type} [LinearOrder Key] [LinearOrder Guid]

/-! ### Counters -/

/-- The counter is the number that it stands for; without `exact` it may be too high. -/
def Counts (exact : Prop) (counter n : ℕ) : Prop := n ≤ counter ∧ (exact → counter = n)

namespace Counts

variable {exact : Prop} {counter n : ℕ}

theorem add_one (h : Counts exact counter n) : Counts exact (counter + 1) (n + 1) :=
  ⟨by have := h.1; omega, fun he => by rw [h.2 he]⟩

theorem extra (h : Counts exact counter n) (hne : ¬exact) : Counts exact (counter + 1) n :=
  ⟨by have := h.1; omega, fun he => absurd he hne⟩

theorem zero : Counts exact 0 0 := ⟨le_rfl, fun _ => rfl⟩

theorem subtract_one (h : Counts exact counter (n + 1)) :
    ∃ counter', subtract counter 1 = some counter' ∧ Counts exact counter' n := by
  have hle := h.1
  refine ⟨counter - 1, if_pos (by omega), by omega, fun he => ?_⟩
  have := h.2 he
  omega

end Counts

namespace CloudDataList

variable {l : CloudDataList Guid} {d : CloudData Guid} {u v c : Guid}

/-- The subscribers that an entry has for its own system. -/
def specific (l : CloudDataList Guid) (u : Guid) : Finset Guid :=
  (l.keyData.lookup u).elim ∅ fun d => d.specificSubscribers

/-- What a system has uploaded. -/
def upload (l : CloudDataList Guid) (u : Guid) : Option (List UInt8) :=
  (l.keyData.lookup u).bind fun d => if d.isUploaded then some d.data else none

/-- How many systems the lists of subscribers have. -/
def subscriptions (l : CloudDataList Guid) : ℕ :=
  l.nonSpecificSubscribers.card + ∑ u ∈ l.keyData.keys, (l.specific u).card

theorem specific_some (h : l.keyData.lookup u = some d) : l.specific u = d.specificSubscribers := by
  rw [specific, h]
  rfl

theorem specific_none (h : l.keyData.lookup u = none) : l.specific u = ∅ := by
  rw [specific, h]
  rfl

theorem upload_some (h : l.keyData.lookup u = some d) :
    l.upload u = if d.isUploaded then some d.data else none := by
  rw [upload, h]
  rfl

theorem upload_none (h : l.keyData.lookup u = none) : l.upload u = none := by
  rw [upload, h]
  rfl

theorem specific_of_notMem (h : u ∉ l.keyData.keys) : l.specific u = ∅ :=
  specific_none (Finmap.lookup_eq_none.mpr fun hmem => h (Finmap.mem_keys.mpr hmem))

theorem specific_setData :
    (l.setData u d).specific v = if v = u then d.specificSubscribers else l.specific v := by
  split
  · next h => exact specific_some (h ▸ Finmap.lookup_insert _)
  · next h =>
    unfold specific setData
    rw [Finmap.lookup_insert_of_ne _ h]

theorem specific_removeData : (l.removeData u).specific v = if v = u then ∅ else l.specific v := by
  split
  · next h => exact specific_none (h ▸ Finmap.lookup_erase _ _)
  · next h =>
    unfold specific removeData
    rw [Finmap.lookup_erase_ne h]

theorem upload_setData : (l.setData u d).upload v =
    if v = u then (if d.isUploaded then some d.data else none) else l.upload v := by
  split
  · next h => exact upload_some (h ▸ Finmap.lookup_insert _)
  · next h =>
    unfold upload setData
    rw [Finmap.lookup_insert_of_ne _ h]

theorem upload_removeData : (l.removeData u).upload v = if v = u then none else l.upload v := by
  split
  · next h => exact upload_none (h ▸ Finmap.lookup_erase _ _)
  · next h =>
    unfold upload removeData
    rw [Finmap.lookup_erase_ne h]

theorem subscriptions_eq (u : Guid) : l.subscriptions = l.nonSpecificSubscribers.card +
    (l.specific u).card + ∑ v ∈ l.keyData.keys.erase u, (l.specific v).card := by
  unfold subscriptions
  rw [Nat.add_assoc]
  congr 1
  by_cases h : u ∈ l.keyData.keys
  · exact (Finset.add_sum_erase _ _ h).symm
  · rw [Finset.erase_eq_of_notMem h, specific_of_notMem h, Finset.card_empty, Nat.zero_add]

theorem sum_congr_specific {l' : CloudDataList Guid}
    (hkeys : l'.keyData.keys.erase u = l.keyData.keys.erase u)
    (hspecific : ∀ v, v ≠ u → l'.specific v = l.specific v) :
    ∑ v ∈ l'.keyData.keys.erase u, (l'.specific v).card =
      ∑ v ∈ l.keyData.keys.erase u, (l.specific v).card := by
  rw [hkeys]
  exact Finset.sum_congr rfl fun v hv => by rw [hspecific v (Finset.ne_of_mem_erase hv)]

theorem keys_setData : (l.setData u d).keyData.keys.erase u = l.keyData.keys.erase u := by
  ext v
  rw [Finset.mem_erase, Finset.mem_erase, Finmap.mem_keys, Finmap.mem_keys]
  refine and_congr_right fun hne => ?_
  exact ⟨fun h => (Finmap.mem_insert.mp h).resolve_left hne,
    fun h => Finmap.mem_insert.mpr (.inr h)⟩

theorem subscriptions_setData : (l.setData u d).subscriptions + (l.specific u).card =
    l.subscriptions + d.specificSubscribers.card := by
  rw [subscriptions_eq u, subscriptions_eq (l := l) u, sum_congr_specific keys_setData
    fun v hv => specific_setData.trans (if_neg hv), specific_setData, if_pos rfl]
  change l.nonSpecificSubscribers.card + _ + _ + _ = _
  omega

theorem subscriptions_removeData :
    (l.removeData u).subscriptions + (l.specific u).card = l.subscriptions := by
  have hkeys : (l.removeData u).keyData.keys.erase u = l.keyData.keys.erase u := by
    unfold removeData
    rw [Finmap.keys_erase, Finset.erase_idem]
  rw [subscriptions_eq u, subscriptions_eq (l := l) u, sum_congr_specific hkeys
    fun v hv => specific_removeData.trans (if_neg hv), specific_removeData, if_pos rfl,
    Finset.card_empty]
  change l.nonSpecificSubscribers.card + _ + _ + _ = _
  omega

/-! ### A subscription to one system -/

/-- The list with other specific subscribers, and nothing of the uploads changed. -/
structure Resubscribed (exact : Prop) (subscribers : Guid → Finset Guid)
    (l l' : CloudDataList Guid) : Prop where
  uploaderCount : l'.uploaderCount = l.uploaderCount
  subscriberCount : Counts exact l'.subscriberCount l'.subscriptions
  upload : ∀ v, l'.upload v = l.upload v
  specific : ∀ v, l'.specific v = subscribers v
  nonSpecific : l'.nonSpecificSubscribers = l.nonSpecificSubscribers

namespace Resubscribed

variable {exact : Prop} {f g : Guid → Finset Guid} {l' l'' : CloudDataList Guid}

theorem refl (h : Counts exact l.subscriberCount l.subscriptions)
    (hspecific : ∀ v, l.specific v = f v) : Resubscribed exact f l l :=
  ⟨rfl, h, fun _ => rfl, hspecific, rfl⟩

theorem trans (h : Resubscribed exact f l l') (h' : Resubscribed exact g l' l'') :
    Resubscribed exact g l l'' :=
  ⟨h'.uploaderCount.trans h.uploaderCount, h'.subscriberCount,
    fun v => (h'.upload v).trans (h.upload v), h'.specific, h'.nonSpecific.trans h.nonSpecific⟩

theorem congr (h : Resubscribed exact f l l') (hfg : ∀ v, f v = g v) :
    Resubscribed exact g l l' :=
  ⟨h.uploaderCount, h.subscriberCount, h.upload, fun v => (h.specific v).trans (hfg v),
    h.nonSpecific⟩

theorem setData {count : ℕ} (hlookup : l.keyData.lookup u = some d) {subscribers : Finset Guid}
    (hcount : Counts exact count (l.setData u
      { d with specificSubscribers := subscribers }).subscriptions) :
    Resubscribed exact (fun v => if v = u then subscribers else l.specific v) l
      ({ l with subscriberCount := count }.setData u
        { d with specificSubscribers := subscribers }) := by
  refine ⟨rfl, hcount, fun v => ?_, fun v => specific_setData, rfl⟩
  refine upload_setData.trans ?_
  split
  · next hv => rw [hv, upload_some hlookup]
  · rfl

end Resubscribed

end CloudDataList

namespace CloudServer

open CloudDataList

variable {l : CloudDataList Guid} {d : CloudData Guid} {u v c : Guid} {exact : Prop}

theorem subtract_subscriberCount (h : Counts exact l.subscriberCount l.subscriptions)
    (hmem : c ∈ l.specific u) :
    ∃ count, subtract l.subscriberCount 1 = some count ∧
      Counts exact count (l.subscriptions - 1) := by
  refine Counts.subtract_one (n := l.subscriptions - 1) ?_
  have hpos : 0 < (l.specific u).card := Finset.card_pos.mpr ⟨c, hmem⟩
  rwa [Nat.sub_add_cancel (by rw [subscriptions_eq u]; omega)]

theorem removeSpecificSubscriber_resubscribed
    (h : Counts exact l.subscriberCount l.subscriptions) :
    ∃ l', removeSpecificSubscriber u c l = some l' ∧ Resubscribed exact
      (fun v => if v = u then (l.specific v).erase c else l.specific v) l l' := by
  unfold removeSpecificSubscriber
  cases hlookup : l.keyData.lookup u with
  | none =>
    refine ⟨l, rfl, .refl h fun v => ?_⟩
    split
    · next hv => rw [hv, specific_none hlookup, Finset.erase_empty]
    · rfl
  | some d =>
    have hspecific := specific_some hlookup
    by_cases hmem : c ∈ d.specificSubscribers
    · obtain ⟨count, hcount, hcounts⟩ := subtract_subscriberCount h (hspecific ▸ hmem)
      have hcard := Finset.card_erase_of_mem hmem
      have hpos : 0 < d.specificSubscribers.card := Finset.card_pos.mpr ⟨c, hmem⟩
      simp only [if_pos hmem, hcount, Option.map_some]
      split
      · next hunused =>
        have hcleared : d.specificSubscribers.erase c = ∅ := hunused.2
        refine ⟨_, rfl, rfl, ?_, fun v => ?_, fun v => ?_, rfl⟩
        · have hsum := subscriptions_removeData (l := l) (u := u)
          rw [hspecific] at hsum
          rw [hcleared, Finset.card_empty] at hcard
          have heq : (l.removeData u).subscriptions = l.subscriptions - 1 := by omega
          exact heq ▸ hcounts
        · refine upload_removeData.trans ?_
          split
          · next hv =>
            rw [hv, upload_some hlookup, if_neg]
            exact fun hup => Bool.noConfusion (hup.symm.trans hunused.1)
          · rfl
        · refine specific_removeData.trans ?_
          split
          · next hv => rw [hv, hspecific, hcleared]
          · rfl
      · refine ⟨_, rfl, (Resubscribed.setData hlookup ?_).congr fun v => ?_⟩
        · have hsum := subscriptions_setData (l := l) (u := u)
            (d := { d with specificSubscribers := d.specificSubscribers.erase c })
          rw [hspecific] at hsum
          change _ = _ + (d.specificSubscribers.erase c).card at hsum
          have heq : (l.setData u { d with
              specificSubscribers := d.specificSubscribers.erase c }).subscriptions =
              l.subscriptions - 1 := by omega
          exact heq ▸ hcounts
        · split
          · next hv => rw [hv, hspecific]
          · rfl
    · refine ⟨l, if_neg hmem, .refl h fun v => ?_⟩
      split
      · next hv => rw [hv, hspecific, Finset.erase_eq_of_notMem hmem]
      · rfl

theorem removeSpecificSubscribers_resubscribed (systems : List Guid)
    (h : Counts exact l.subscriberCount l.subscriptions) :
    ∃ l', removeSpecificSubscribers c systems l = some l' ∧ Resubscribed exact
      (fun v => if v ∈ systems then (l.specific v).erase c else l.specific v) l l' := by
  induction systems generalizing l with
  | nil => exact ⟨l, rfl, .refl h fun v => (if_neg List.not_mem_nil).symm⟩
  | cons system systems ih =>
    obtain ⟨l₁, hl₁, hone⟩ := removeSpecificSubscriber_resubscribed (u := system) (c := c) h
    obtain ⟨l₂, hl₂, hrest⟩ := ih hone.subscriberCount
    refine ⟨l₂, ?_, hone.trans (hrest.congr fun v => ?_)⟩
    · rw [removeSpecificSubscribers, hl₁, Option.bind_some, hl₂]
    · rw [hone.specific]
      by_cases hv : v = system
      · rw [if_pos hv, if_pos (List.mem_cons.mpr (.inl hv)), Finset.erase_idem, ite_self]
      · simp only [List.mem_cons, hv, false_or, if_false]

theorem unsubscribeLoop_resubscribed (systems : List Guid) (subscribedTo : Finset Guid)
    (h : Counts exact l.subscriberCount l.subscriptions) :
    ∃ l', unsubscribeLoop c systems subscribedTo l =
        some (subscribedTo.filter (· ∉ systems), l') ∧ Resubscribed exact
      (fun v => if v ∈ subscribedTo ∧ v ∈ systems then (l.specific v).erase c
        else l.specific v) l l' := by
  induction systems generalizing l subscribedTo with
  | nil =>
    refine ⟨l, ?_, .refl h fun v => (if_neg fun hv => List.not_mem_nil hv.2).symm⟩
    rw [unsubscribeLoop, Finset.filter_true_of_mem fun v _ => List.not_mem_nil]
  | cons system systems ih =>
    by_cases hmem : system ∈ subscribedTo
    · obtain ⟨l₁, hl₁, hone⟩ := removeSpecificSubscriber_resubscribed (u := system) (c := c) h
      obtain ⟨l₂, hl₂, hrest⟩ := ih (subscribedTo.erase system) hone.subscriberCount
      refine ⟨l₂, ?_, hone.trans (hrest.congr fun v => ?_)⟩
      · rw [unsubscribeLoop, if_pos hmem, hl₁, Option.bind_some, hl₂]
        congr 2
        ext v
        grind
      · rw [hone.specific]
        grind
    · obtain ⟨l', hl', hrest⟩ := ih subscribedTo h
      refine ⟨l', ?_, hrest.congr fun v => ?_⟩
      · rw [unsubscribeLoop, if_neg hmem, hl']
        congr 2
        ext v
        grind
      · grind

theorem addSpecificSubscriber_resubscribed (h : Counts exact l.subscriberCount l.subscriptions)
    (hexact : exact → c ∉ l.specific u) :
    Resubscribed exact (fun v => if v = u then insert c (l.specific v) else l.specific v) l
      (addSpecificSubscriber c l u) := by
  have hold : ((l.keyData.lookup u).getD CloudData.allocated).specificSubscribers =
      l.specific u := by
    unfold specific
    cases l.keyData.lookup u with
    | none => rfl
    | some d => rfl
  have hupload : l.upload u = if ((l.keyData.lookup u).getD CloudData.allocated).isUploaded then
      some ((l.keyData.lookup u).getD CloudData.allocated).data else none := by
    unfold upload
    cases l.keyData.lookup u with
    | none => rfl
    | some d => rfl
  unfold addSpecificSubscriber
  generalize (l.keyData.lookup u).getD CloudData.allocated = d at hold hupload
  refine ⟨rfl, ?_, fun v => ?_, fun v => ?_, rfl⟩
  · have hsum := subscriptions_setData (l := l) (u := u)
      (d := { d with specificSubscribers := insert c d.specificSubscribers })
    change _ = _ + (insert c d.specificSubscribers).card at hsum
    change Counts exact (l.subscriberCount + 1) (l.setData u
      { d with specificSubscribers := insert c d.specificSubscribers }).subscriptions
    rw [← hold] at hsum hexact
    by_cases hmem : c ∈ d.specificSubscribers
    · rw [Finset.card_insert_of_mem hmem] at hsum
      rw [Nat.add_right_cancel hsum]
      exact h.extra fun he => hexact he hmem
    · rw [Finset.card_insert_of_notMem hmem, ← Nat.add_assoc, Nat.add_right_comm] at hsum
      rw [Nat.add_right_cancel hsum]
      exact h.add_one
  · refine upload_setData.trans ?_
    split
    · next hv => rw [hv, hupload]
    · rfl
  · refine specific_setData.trans ?_
    split
    · next hv => rw [hv, ← hold]
    · rfl

theorem foldl_addSpecificSubscriber_resubscribed {systems : List Guid}
    (h : Counts exact l.subscriberCount l.subscriptions)
    (hexact : exact → systems.Nodup ∧ ∀ v ∈ systems, c ∉ l.specific v) :
    Resubscribed exact (fun v => if v ∈ systems then insert c (l.specific v) else l.specific v) l
      (systems.foldl (addSpecificSubscriber c) l) := by
  induction systems generalizing l with
  | nil => exact .refl h fun v => (if_neg List.not_mem_nil).symm
  | cons system systems ih =>
    have hone := addSpecificSubscriber_resubscribed (c := c) (u := system) h
      fun he => (hexact he).2 system List.mem_cons_self
    refine hone.trans ((ih hone.subscriberCount fun he => ?_).congr fun v => ?_)
    · obtain ⟨hnodup, hnew⟩ := hexact he
      rw [List.nodup_cons] at hnodup
      refine ⟨hnodup.2, fun v hv => ?_⟩
      rw [hone.specific, if_neg fun heq : v = system => hnodup.1 (heq ▸ hv)]
      exact hnew v (List.mem_cons_of_mem _ hv)
    · rw [hone.specific]
      by_cases hv : v = system
      · rw [if_pos hv, if_pos (List.mem_cons.mpr (.inl hv)), Finset.insert_idem, ite_self]
      · simp only [List.mem_cons, hv, false_or, if_false]

theorem closeSpecific_resubscribed {systems : List Guid} (hnodup : systems.Nodup)
    (h : Counts exact l.subscriberCount l.subscriptions)
    (hmem : ∀ v ∈ systems, c ∈ l.specific v) :
    ∃ l', closeSpecific c systems l = some l' ∧ Resubscribed exact
      (fun v => if v ∈ systems then (l.specific v).erase c else l.specific v) l l' := by
  induction systems generalizing l with
  | nil => exact ⟨l, rfl, .refl h fun v => (if_neg List.not_mem_nil).symm⟩
  | cons system systems ih =>
    rw [List.nodup_cons] at hnodup
    have hfirst := hmem system List.mem_cons_self
    cases hlookup : l.keyData.lookup system with
    | none => exact absurd (specific_none hlookup ▸ hfirst) (Finset.notMem_empty c)
    | some d =>
      have hspecific := specific_some hlookup
      obtain ⟨count, hcount, hcounts⟩ := subtract_subscriberCount h hfirst
      have hsum := subscriptions_setData (l := l) (u := system)
        (d := { d with specificSubscribers := d.specificSubscribers.erase c })
      have hcard := Finset.card_erase_of_mem (hspecific ▸ hfirst)
      have hpos : 0 < d.specificSubscribers.card := Finset.card_pos.mpr ⟨c, hspecific ▸ hfirst⟩
      rw [hspecific] at hsum
      change _ = _ + (d.specificSubscribers.erase c).card at hsum
      have heq : (l.setData system { d with
          specificSubscribers := d.specificSubscribers.erase c }).subscriptions =
          l.subscriptions - 1 := by omega
      have hone := Resubscribed.setData hlookup (heq ▸ hcounts)
      have hmem' : ∀ v ∈ systems, c ∈ ({ l with subscriberCount := count }.setData system
          { d with specificSubscribers := d.specificSubscribers.erase c }).specific v := by
        intro v hv
        rw [hone.specific, if_neg fun heq : v = system => hnodup.1 (heq ▸ hv)]
        exact hmem v (List.mem_cons_of_mem _ hv)
      obtain ⟨l', hl', hrest⟩ := ih hnodup.2 hone.subscriberCount hmem'
      refine ⟨l', ?_, hone.trans (hrest.congr fun v => ?_)⟩
      · simp only [closeSpecific, hlookup, hcount, Option.bind_some, hl']
      · rw [hone.specific]
        by_cases hv : v = system
        · rw [if_pos hv, if_pos (List.mem_cons.mpr (.inl hv)), Finset.erase_idem, ite_self, hv,
            hspecific]
        · simp only [List.mem_cons, hv, false_or, if_false]

end CloudServer

/-! ### One key and what it is to hold -/

namespace CloudDataList

/-- The list holds the uploads `posters` with their `contents`, and the subscriptions `subs`. -/
structure Agrees (exact : Prop) (posters : Finset Guid) (contents : Guid → List UInt8)
    (subs : Guid → Option (Finset Guid)) (l : CloudDataList Guid) : Prop where
  uploaderCount : Counts exact l.uploaderCount posters.card
  subscriberCount : Counts exact l.subscriberCount l.subscriptions
  upload : ∀ u, l.upload u = if u ∈ posters then some (contents u) else none
  nonSpecific : ∀ c, c ∈ l.nonSpecificSubscribers ↔ subs c = some ∅
  specific : ∀ c u, c ∈ l.specific u ↔ ∃ systems, subs c = some systems ∧ u ∈ systems

namespace Agrees

variable {exact : Prop} {posters : Finset Guid} {contents : Guid → List UInt8}
  {subs : Guid → Option (Finset Guid)} {l l' : CloudDataList Guid} {u c : Guid} {d : CloudData Guid}

theorem allocated (hposters : posters = ∅) (hsubs : ∀ c, subs c = none) :
    Agrees exact posters contents subs .allocated where
  uploaderCount := hposters ▸ .zero
  subscriberCount := .zero
  upload u := by
    rw [if_neg (hposters ▸ Finset.notMem_empty u)]
    rfl
  nonSpecific c := by
    rw [hsubs]
    exact ⟨fun h => absurd h (Finset.notMem_empty c), fun h => by cases h⟩
  specific c u := by
    rw [hsubs]
    exact ⟨fun h => absurd h (Finset.notMem_empty c), fun ⟨_, h, _⟩ => by cases h⟩

theorem lookup (h : Agrees exact posters contents subs l) (hu : u ∈ posters) :
    ∃ d, l.keyData.lookup u = some d ∧ d.isUploaded = true ∧ d.data = contents u := by
  have hupload := h.upload u
  rw [if_pos hu, CloudDataList.upload, Option.bind_eq_some_iff] at hupload
  obtain ⟨d, hd, hsome⟩ := hupload
  by_cases hup : d.isUploaded = true
  · rw [if_pos hup] at hsome
    exact ⟨d, hd, hup, Option.some.inj hsome⟩
  · rw [if_neg hup] at hsome
    cases hsome

theorem mem_posters (h : Agrees exact posters contents subs l)
    (hlookup : l.keyData.lookup u = some d) : u ∈ posters ↔ d.isUploaded = true := by
  have hupload := h.upload u
  rw [upload_some hlookup] at hupload
  by_cases hu : u ∈ posters <;> by_cases hup : d.isUploaded = true
  · exact iff_of_true hu hup
  · rw [if_pos hu, if_neg hup] at hupload
    cases hupload
  · rw [if_neg hu, if_pos hup] at hupload
    cases hupload
  · exact iff_of_false hu hup

theorem mem_specific (h : Agrees exact posters contents subs l) {systems : Finset Guid}
    (hsubs : subs c = some systems) : c ∈ l.specific u ↔ u ∈ systems := by
  rw [h.specific, hsubs]
  exact ⟨fun ⟨_, heq, hu⟩ => Option.some.inj heq ▸ hu, fun hu => ⟨systems, rfl, hu⟩⟩

theorem notMem_specific (h : Agrees exact posters contents subs l) (hsubs : subs c = none) :
    c ∉ l.specific u := by
  rw [h.specific, hsubs]
  exact fun ⟨_, heq, _⟩ => by cases heq

theorem of_unused (h : Agrees exact posters contents subs l) (hunused : l.IsUnused) :
    posters = ∅ ∧ ∀ c, subs c = none := by
  have hlookup : ∀ u, l.keyData.lookup u = none := fun u =>
    Finmap.lookup_eq_none.mpr fun hmem =>
      absurd (hunused.1 ▸ Finmap.mem_keys.mpr hmem) (Finset.notMem_empty u)
  refine ⟨Finset.eq_empty_of_forall_notMem fun u hu => ?_, fun c => ?_⟩
  · obtain ⟨d, hd, -⟩ := h.lookup hu
    exact absurd ((hlookup u).symm.trans hd) (by simp)
  · cases hsubs : subs c with
    | none => rfl
    | some systems =>
      rcases systems.eq_empty_or_nonempty with hempty | ⟨u, hu⟩
      · have hmem := (h.nonSpecific c).mpr (hempty ▸ hsubs)
        exact absurd (hunused.2 ▸ hmem) (Finset.notMem_empty c)
      · have hmem := (h.mem_specific hsubs).mpr hu
        exact absurd (specific_none (hlookup u) ▸ hmem) (Finset.notMem_empty c)

theorem kept (h : Agrees exact posters contents subs l) :
    Agrees exact posters contents subs (l.kept.getD .allocated) := by
  unfold CloudDataList.kept
  split
  · next hunused =>
    obtain ⟨hposters, hsubs⟩ := h.of_unused hunused
    exact .allocated hposters hsubs
  · exact h

theorem resubscribed (h : Agrees exact posters contents subs l) {f : Guid → Finset Guid}
    (hl' : Resubscribed exact f l l') {r : Option (Finset Guid)}
    (hr : r ≠ some ∅) (hc : subs c ≠ some ∅)
    (hself : ∀ u, c ∈ f u ↔ ∃ systems, r = some systems ∧ u ∈ systems)
    (hother : ∀ c' u, c' ≠ c → (c' ∈ f u ↔ c' ∈ l.specific u)) :
    Agrees exact posters contents (Function.update subs c r) l' where
  uploaderCount := hl'.uploaderCount ▸ h.uploaderCount
  subscriberCount := hl'.subscriberCount
  upload u := (hl'.upload u).trans (h.upload u)
  nonSpecific c' := by
    rw [hl'.nonSpecific, h.nonSpecific, Function.update_apply]
    split
    · next heq => exact heq ▸ iff_of_false hc hr
    · rfl
  specific c' u := by
    rw [hl'.specific, Function.update_apply]
    split
    · next heq => exact heq ▸ hself u
    · next hne => rw [hother c' u hne, h.specific]

theorem erase_nonSpecific (h : Agrees exact posters contents subs l) (hsubs : subs c = some ∅) :
    ∃ count, subtract l.subscriberCount 1 = some count ∧
      Agrees exact posters contents (Function.update subs c none) { l with
        subscriberCount := count
        nonSpecificSubscribers := l.nonSpecificSubscribers.erase c } := by
  have hmem := (h.nonSpecific c).mpr hsubs
  have hcard := Finset.card_erase_of_mem hmem
  have hpos : 0 < l.nonSpecificSubscribers.card := Finset.card_pos.mpr ⟨c, hmem⟩
  have hsum : l.subscriptions = { l with
      nonSpecificSubscribers := l.nonSpecificSubscribers.erase c }.subscriptions + 1 := by
    change l.nonSpecificSubscribers.card + _ = (l.nonSpecificSubscribers.erase c).card + _ + 1
    rw [hcard, Nat.add_right_comm, Nat.sub_add_cancel hpos]
    rfl
  obtain ⟨count, hcount, hcounts⟩ := (hsum ▸ h.subscriberCount).subtract_one
  refine ⟨count, hcount, h.uploaderCount, hcounts, h.upload, fun c' => ?_, fun c' u => ?_⟩
  · rw [Finset.mem_erase, h.nonSpecific, Function.update_apply]
    split
    · next heq => exact iff_of_false (fun hne => hne.1 heq) (by simp)
    · next hne => exact and_iff_right hne
  · rw [Function.update_apply]
    change c' ∈ l.specific u ↔ _
    split
    · next heq =>
      rw [heq, h.mem_specific hsubs]
      exact iff_of_false (Finset.notMem_empty u) fun ⟨_, hnone, _⟩ => by cases hnone
    · exact h.specific c' u

theorem unsubscribed (h : Agrees exact posters contents subs l) {systems : Finset Guid}
    (hsubs : subs c = some systems) (hne : systems ≠ ∅)
    (hl' : Resubscribed exact (fun v => if v ∈ systems.sort (· ≤ ·) then (l.specific v).erase c
      else l.specific v) l l') :
    Agrees exact posters contents (Function.update subs c none) l' := by
  refine h.resubscribed hl' (fun hnone => by cases hnone)
    (fun hsome => hne (Option.some.inj (hsubs.symm.trans hsome))) (fun u => ?_) fun c' u hc => ?_
  · refine iff_of_false ?_ fun ⟨_, hnone, _⟩ => by cases hnone
    split
    · exact Finset.notMem_erase c _
    · next hu =>
      exact fun hmem => hu ((Finset.mem_sort _).mpr ((h.mem_specific hsubs).mp hmem))
  · split
    · exact Finset.mem_erase.trans (and_iff_right hc)
    · rfl

theorem removeSubscriptions (h : Agrees exact posters contents subs l) {systems : Finset Guid}
    (hsubs : subs c = some systems) :
    ∃ l', CloudServer.removeSubscriptions c systems l = some l' ∧
      Agrees exact posters contents (Function.update subs c none) l' := by
  unfold CloudServer.removeSubscriptions
  by_cases hgeneral : c ∈ l.nonSpecificSubscribers
  · obtain ⟨count, hcount, hagrees⟩ := h.erase_nonSpecific ((h.nonSpecific c).mp hgeneral)
    exact ⟨_, by rw [if_pos hgeneral, hcount, Option.map_some], hagrees⟩
  · obtain ⟨l', hl', hresub⟩ := removeSpecificSubscribers_resubscribed (c := c)
      (systems.sort (· ≤ ·)) h.subscriberCount
    have hne : systems ≠ ∅ := fun hempty => hgeneral ((h.nonSpecific c).mpr (hempty ▸ hsubs))
    exact ⟨l', by rw [if_neg hgeneral, hl'], h.unsubscribed hsubs hne hresub⟩

theorem unsubscribeLoop (h : Agrees exact posters contents subs l) {systems : Finset Guid}
    (specificSystems : List Guid) (hsubs : subs c = some systems) (hne : systems ≠ ∅) :
    ∃ l', CloudServer.unsubscribeLoop c specificSystems systems l =
        some (systems.filter (· ∉ specificSystems), l') ∧
      Agrees exact posters contents (Function.update subs c
        (if systems.filter (· ∉ specificSystems) = ∅ then none
          else some (systems.filter (· ∉ specificSystems)))) l' := by
  obtain ⟨l', hl', hresub⟩ := unsubscribeLoop_resubscribed (c := c)
    specificSystems systems h.subscriberCount
  refine ⟨l', hl', h.resubscribed hresub ?_ (fun hempty => ?_) (fun u => ?_) fun c' u hc => ?_⟩
  · split
    · exact fun hnone => by cases hnone
    · next hrest => exact fun hempty => hrest (Option.some.inj hempty)
  · exact hne (Option.some.inj (hsubs.symm.trans hempty))
  · have hself : (∃ r, (if systems.filter (· ∉ specificSystems) = ∅ then none
        else some (systems.filter (· ∉ specificSystems))) = some r ∧ u ∈ r) ↔
        u ∈ systems.filter (· ∉ specificSystems) := by
      split
      · next hempty =>
        exact iff_of_false (fun ⟨_, hnone, _⟩ => by cases hnone)
          (hempty ▸ Finset.notMem_empty u)
      · exact ⟨fun ⟨_, heq, hu⟩ => Option.some.inj heq ▸ hu, fun hu => ⟨_, rfl, hu⟩⟩
    rw [hself, Finset.mem_filter]
    split
    · next hu => exact iff_of_false (Finset.notMem_erase c _) fun hkept => hkept.2 hu.2
    · next hu =>
      rw [h.mem_specific hsubs]
      exact ⟨fun hmem => ⟨hmem, fun hin => hu ⟨hmem, hin⟩⟩, fun hkept => hkept.1⟩
  · split
    · exact Finset.mem_erase.trans (and_iff_right hc)
    · rfl

theorem addSubscriptions (h : Agrees exact posters contents subs l)
    {specificSystems : List Guid} (hsubs : subs c = none)
    (hexact : exact → specificSystems.Nodup) :
    Agrees exact posters contents
      (Function.update subs c (some specificSystems.toFinset))
      (CloudServer.addSubscriptions c specificSystems l) := by
  unfold CloudServer.addSubscriptions
  have hnone : c ∉ l.nonSpecificSubscribers := fun hmem => by
    have := (h.nonSpecific c).mp hmem
    rw [hsubs] at this
    cases this
  split
  · next hempty =>
    have hsum : { l with
        nonSpecificSubscribers := insert c l.nonSpecificSubscribers }.subscriptions =
        l.subscriptions + 1 := by
      change (insert c l.nonSpecificSubscribers).card + _ = l.nonSpecificSubscribers.card + _ + 1
      rw [Finset.card_insert_of_notMem hnone, Nat.add_right_comm]
      rfl
    refine ⟨h.uploaderCount, hsum ▸ h.subscriberCount.add_one, h.upload, fun c' => ?_,
      fun c' u => ?_⟩
    · rw [Finset.mem_insert, h.nonSpecific, Function.update_apply, hempty]
      split
      · next heq => exact iff_of_true (.inl heq) rfl
      · next hne => exact or_iff_right hne
    · rw [Function.update_apply, hempty]
      change c' ∈ l.specific u ↔ _
      split
      · next heq =>
        refine iff_of_false (heq ▸ h.notMem_specific hsubs) fun ⟨_, hsome, hu⟩ => ?_
        rw [← Option.some.inj hsome] at hu
        exact absurd hu (Finset.notMem_empty u)
      · exact h.specific c' u
  · next hempty =>
    refine h.resubscribed (foldl_addSpecificSubscriber_resubscribed h.subscriberCount
      fun he => ⟨hexact he, fun v _ => h.notMem_specific hsubs⟩) ?_ (by simp [hsubs])
      (fun u => ?_) fun c' u hne => ?_
    · rw [ne_eq, Option.some.injEq, List.toFinset_eq_empty_iff]
      exact hempty
    · have hself : (∃ r, some specificSystems.toFinset = some r ∧ u ∈ r) ↔
          u ∈ specificSystems :=
        ⟨fun ⟨_, heq, hu⟩ => List.mem_toFinset.mp (Option.some.inj heq ▸ hu),
          fun hu => ⟨_, rfl, List.mem_toFinset.mpr hu⟩⟩
      rw [hself]
      split
      · next hu => exact iff_of_true (Finset.mem_insert_self c _) hu
      · next hu => exact iff_of_false (h.notMem_specific hsubs) hu
    · split
      · exact Finset.mem_insert.trans (or_iff_right hne)
      · rfl

theorem closeSubscription (h : Agrees exact posters contents subs l) {systems : Finset Guid}
    (hsubs : subs c = some systems) :
    ∃ l', CloudServer.closeSubscription c systems l = some l' ∧
      Agrees exact posters contents (Function.update subs c none) l' := by
  unfold CloudServer.closeSubscription
  by_cases hempty : systems = ∅
  · obtain ⟨count, hcount, hagrees⟩ := h.erase_nonSpecific (hempty ▸ hsubs)
    exact ⟨_, by rw [if_pos hempty, hcount, Option.map_some], hagrees⟩
  · obtain ⟨l', hl', hresub⟩ := closeSpecific_resubscribed (c := c)
      (systems.sort_nodup (· ≤ ·)) h.subscriberCount fun v hv =>
        (h.mem_specific hsubs).mpr ((Finset.mem_sort _).mp hv)
    exact ⟨l', by rw [if_neg hempty, hl'], h.unsubscribed hsubs hempty hresub⟩

/-! ### The uploads -/

/-- `u` posts: a new entry, or one that has been posted already where the counter may be too
high. -/
theorem post (h : Agrees exact posters contents subs l) (data : List UInt8)
    (hplaced : ∀ d, l.keyData.lookup u = some d → ¬exact ∧ d.isUploaded = true) :
    Agrees exact (insert u posters) (Function.update contents u data) subs
      ({ l with uploaderCount := l.uploaderCount + 1 }.setData u
        ((l.keyData.lookup u).elim ⟨data, true, ∅⟩ fun d => { d with data := data })) := by
  have hd : ∀ d, (l.keyData.lookup u).elim ⟨data, true, ∅⟩
      (fun d => { d with data := data }) = d → d.isUploaded = true ∧ d.data = data ∧
        d.specificSubscribers = l.specific u := by
    intro d hd
    cases hlookup : l.keyData.lookup u with
    | none =>
      rw [hlookup] at hd
      exact hd ▸ ⟨rfl, rfl, (specific_none hlookup).symm⟩
    | some old =>
      rw [hlookup] at hd
      exact hd ▸ ⟨(hplaced old hlookup).2, rfl, (specific_some hlookup).symm⟩
  generalize (l.keyData.lookup u).elim _ _ = d at hd ⊢
  obtain ⟨hup, hdata, hspecific⟩ := hd d rfl
  refine ⟨?_, ?_, fun v => ?_, h.nonSpecific, fun c v => ?_⟩
  · change Counts exact (l.uploaderCount + 1) _
    by_cases hu : u ∈ posters
    · obtain ⟨old, hlookup, -, -⟩ := h.lookup hu
      rw [Finset.insert_eq_of_mem hu]
      exact h.uploaderCount.extra (hplaced old hlookup).1
    · rw [Finset.card_insert_of_notMem hu]
      exact h.uploaderCount.add_one
  · have hsum := subscriptions_setData (l := l) (u := u) (d := d)
    rw [hspecific] at hsum
    have heq : (l.setData u d).subscriptions = l.subscriptions := Nat.add_right_cancel hsum
    exact heq ▸ h.subscriberCount
  · refine upload_setData.trans ?_
    rw [Function.update_apply, if_pos hup]
    by_cases hv : v = u
    · rw [if_pos hv, if_pos (Finset.mem_insert.mpr (.inl hv)), if_pos hv, hdata]
    · rw [if_neg hv, if_neg hv]
      refine (h.upload v).trans ?_
      simp only [Finset.mem_insert, hv, false_or]
  · rw [← h.specific, specific_setData]
    split
    · next hv => rw [hspecific, hv]
    · rfl

theorem clear (h : Agrees exact posters contents subs l) (hu : u ∈ posters)
    (hlookup : l.keyData.lookup u = some d) :
    ∃ count, subtract l.uploaderCount 1 = some count ∧
      Counts exact count (posters.erase u).card ∧
      Agrees exact (posters.erase u) contents subs
        (if d.clear.IsUnused then { l with uploaderCount := count }.removeData u
          else { l with uploaderCount := count }.setData u d.clear) := by
  have hcard := Finset.card_erase_of_mem hu
  have hpos : 0 < posters.card := Finset.card_pos.mpr ⟨u, hu⟩
  have hcounts := h.uploaderCount
  rw [show posters.card = (posters.erase u).card + 1 by omega] at hcounts
  obtain ⟨count, hcount, hcounts⟩ := hcounts.subtract_one
  refine ⟨count, hcount, hcounts, ?_⟩
  have hspecific := specific_some hlookup
  have hupload : ∀ v, (if v ∈ posters.erase u then some (contents v) else none) =
      if v = u then none else l.upload v := by
    intro v
    by_cases hv : v = u
    · rw [if_pos hv, if_neg fun hmem => (Finset.mem_erase.mp hmem).1 hv]
    · rw [if_neg hv, h.upload v]
      simp only [Finset.mem_erase, ne_eq, hv, not_false_eq_true, true_and]
  split
  · next hunused =>
    have hempty : l.specific u = ∅ := hspecific.trans hunused.2
    have hsum := subscriptions_removeData (l := l) (u := u)
    rw [hempty, Finset.card_empty, Nat.add_zero] at hsum
    refine ⟨hcounts, hsum.symm ▸ h.subscriberCount, fun v => ?_, h.nonSpecific, fun c v => ?_⟩
    · rw [hupload]
      exact upload_removeData
    · rw [← h.specific]
      refine iff_of_eq (congrArg (c ∈ ·) (specific_removeData.trans ?_))
      split
      · next hv => rw [hv, hempty]
      · rfl
  · have hsum := subscriptions_setData (l := l) (u := u) (d := d.clear)
    rw [hspecific] at hsum
    have heq : (l.setData u d.clear).subscriptions = l.subscriptions := Nat.add_right_cancel hsum
    refine ⟨hcounts, heq ▸ h.subscriberCount, fun v => ?_, h.nonSpecific, fun c v => ?_⟩
    · rw [hupload]
      exact upload_setData
    · rw [← h.specific]
      refine iff_of_eq (congrArg (c ∈ ·) (specific_setData.trans ?_))
      split
      · next hv => rw [hv, hspecific]; rfl
      · rfl

end Agrees

end CloudDataList

end SLikeNet
