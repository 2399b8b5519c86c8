import SLikeNet.ChangedVariables

/-! Updates that are sent unreliably, with receipts that tell what became of them: what one update
and one receipt do to the history of a remote system. -/

namespace SLikeNet

open BitMemory VariableListDeltaTracker

/-- One update to a remote system: its receipt, the variables, and what the context on the stack
and the block of the pool hold before they are set. -/
structure AckedUpdate where
  sendReceipt : UInt32
  vars : List Serialization
  context : SerializationContext
  memory : ChangedVariablesList

inductive AckedEvent
  | update (u : AckedUpdate)
  | receipt (receiptId : UInt32) (messageArrived : Bool)

namespace VariableDeltaSerializer

/-- `BeginUnreliableAckedSerialize`, one `SerializeVariable` for each variable, `EndSerialize`. -/
def unreliableAckedUpdate (guid : RakNetGUID) (s : VariableDeltaSerializer) (u : AckedUpdate) :
    Option (VariableDeltaSerializer × List Bool) :=
  let (s', context) := s.beginUnreliableAckedSerialize (.new u.context) guid [] u.sendReceipt u.memory
  (s'.serializeVariables context u.vars).map fun (s'', context') => s''.endSerialize context'

def ackedStep (guid : RakNetGUID) (s : Option VariableDeltaSerializer) :
    AckedEvent → Option VariableDeltaSerializer
  | .update u => s.bind fun s => (s.unreliableAckedUpdate guid u).map Prod.fst
  | .receipt receiptId messageArrived =>
    s.bind fun s => s.onMessageReceipt guid receiptId messageArrived

/-- The stream that an update writes after the given events. -/
def sentAfter (guid : RakNetGUID) (events : List AckedEvent) (u : AckedUpdate) :
    Option (List Bool) :=
  (events.foldl (ackedStep guid) (some new)).bind fun s =>
    (s.unreliableAckedUpdate guid u).map Prod.snd

end VariableDeltaSerializer

/-- The stream holds the variable behind a flag that is set. -/
def WritesVariable (bitStream : List Bool) (vars : List Serialization) (i : ℕ) : Prop :=
  ∃ flags, flags.length = vars.length ∧ bitStream = layout [] flags vars ∧ flags[i]? = some true

/-- No variable changes its size in front of one that is only written because it is dirty. -/
def keepsDirty : List VariableLastValueNode → List Serialization → Bool
  | front :: node :: nodes, varFront :: varData :: rest =>
    !(front.sizeDiffers varFront && node.isDirty && decide (varData.data = node.lastData)) &&
      keepsDirty (node :: nodes) (varData :: rest)
  | _, _ => true

/-- The flags fit into the bit field, no flag is cleared with its variable left out, and the
last variable does not change its size where the array of the tracker ends with it. -/
def KeepsFlags (guid : RakNetGUID) : Option VariableDeltaSerializer → AckedEvent → Prop
  | some s, .update u =>
    u.vars.length ≤ bitFieldSize * 8 ∧
      ∀ history ∈ s.remoteSystemVariableHistoryList, history.guid = guid →
        keepsDirty history.variableListDeltaTracker.variableList u.vars = true ∧
          (lastSizeDiffers history.variableListDeltaTracker.variableList u.vars = true →
            history.variableListDeltaTracker.variableList.length <
              history.variableListDeltaTracker.allocationSize)
  | _, _ => True

instance decidableKeepsFlags (guid : RakNetGUID) :
    ∀ state event, Decidable (KeepsFlags guid state event)
  | some s, .update _ => inferInstanceAs (Decidable (_ ∧
      ∀ history ∈ s.remoteSystemVariableHistoryList, history.guid = guid → _ ∧ (_ → _)))
  | some _, .receipt _ _ => isTrue trivial
  | none, _ => isTrue trivial

/-! ### Streams -/

theorem layout_injective {bitStream flags flags' : List Bool} {vars : List Serialization}
    (hlen : flags.length = vars.length) (hlen' : flags'.length = vars.length)
    (h : layout bitStream flags vars = layout bitStream flags' vars) : flags = flags' := by
  induction vars generalizing bitStream flags flags' with
  | nil => rw [List.length_eq_zero_iff.mp hlen, List.length_eq_zero_iff.mp hlen']
  | cons varData rest ih =>
    cases flags with
    | nil => simp at hlen
    | cons flag flags =>
      cases flags' with
      | nil => simp at hlen'
      | cons flag' flags' =>
        have hprefix := flag_prefix_layout bitStream flags flag varData rest
        have hprefix' := flag_prefix_layout bitStream flags' flag' varData rest
        rw [h] at hprefix
        have hflag : flag = flag' := by
          have heq := (List.prefix_of_prefix_length_le hprefix hprefix' (by simp)).eq_of_length (by simp)
          simpa using heq
        subst hflag
        rw [ih (Nat.succ.inj hlen) (Nat.succ.inj hlen') h]

/-! ### Histories -/

theorem keepsDirty_spec {nodes : List VariableLastValueNode} {vars : List Serialization} {j : ℕ}
    {front node : VariableLastValueNode} {varFront varData : Serialization}
    (h : keepsDirty nodes vars = true) (hfront : nodes[j]? = some front)
    (hvarFront : vars[j]? = some varFront) (hdiffers : front.sizeDiffers varFront = true)
    (hnode : nodes[j + 1]? = some node) (hvar : vars[j + 1]? = some varData)
    (hdirty : node.isDirty = true) : varData.data ≠ node.lastData := by
  induction nodes generalizing j vars with
  | nil => simp at hfront
  | cons head nodes ih =>
    rcases vars with _ | ⟨varHead, rest⟩
    · simp at hvar
    rcases nodes with _ | ⟨second, nodes⟩
    · simp at hnode
    rcases rest with _ | ⟨varSecond, rest⟩
    · simp at hvar
    simp only [keepsDirty, Bool.and_eq_true] at h
    cases j with
    | zero =>
      simp at hfront hvarFront hnode hvar
      subst hfront hvarFront hnode hvar
      have hhead := h.1
      simpa [hdiffers, hdirty] using hhead
    | succ j => exact ih h.2 hfront hvarFront hnode hvar


/-- The receipts are sorted, the list is empty or has one node for each variable, and its bits fit
into the field. -/
structure RemoteSystemVariableHistory.WellFormed (n : ℕ) (history : RemoteSystemVariableHistory) :
    Prop where
  sorted : history.updatedVariablesHistory.Pairwise fun a b => a.sendReceipt < b.sendReceipt
  size : history.variableListDeltaTracker.variableList = [] ∨
    history.variableListDeltaTracker.variableList.length = n
  bits : history.variableListDeltaTracker.variableList.length ≤ bitFieldSize * 8
  slots : history.variableListDeltaTracker.variableList.length ≤
    history.variableListDeltaTracker.allocationSize

namespace RemoteSystemVariableHistory

variable {n : ℕ} {history : RemoteSystemVariableHistory}

/-- The history knows that the update with this receipt wrote the variable. -/
def Recorded (history : RemoteSystemVariableHistory) (receipt : UInt32) (i : ℕ) : Prop :=
  ∃ changed ∈ history.updatedVariablesHistory,
    changed.sendReceipt = receipt ∧ bitAt changed.bitField i = true

def Dirty (history : RemoteSystemVariableHistory) (i : ℕ) : Prop :=
  ∃ node, history.variableListDeltaTracker.variableList[i]? = some node ∧ node.isDirty = true

theorem wellFormed_new (n : ℕ) (guid : RakNetGUID) : (new guid).WellFormed n :=
  ⟨List.Pairwise.nil, Or.inl rfl, Nat.zero_le _, Nat.zero_le _⟩

theorem comp_eq_lt {key : UInt32} {data : ChangedVariablesList} :
    updatedVariablesListPtrComp key data = .lt ↔ key < data.sendReceipt := by
  by_cases hlt : key < data.sendReceipt
  · simp [updatedVariablesListPtrComp, hlt]
  · by_cases heq : key = data.sendReceipt <;> simp [updatedVariablesListPtrComp, heq, hlt]

theorem comp_eq_eq {key : UInt32} {data : ChangedVariablesList} :
    updatedVariablesListPtrComp key data = .eq ↔ key = data.sendReceipt := by
  by_cases heq : key = data.sendReceipt
  · simp [updatedVariablesListPtrComp, heq]
  · by_cases hlt : key < data.sendReceipt <;> simp [updatedVariablesListPtrComp, heq, hlt]

theorem comp_eq_gt {key : UInt32} {data : ChangedVariablesList} :
    updatedVariablesListPtrComp key data = .gt ↔ data.sendReceipt < key := by
  have hgt : data.sendReceipt < key ↔ ¬ key < data.sendReceipt ∧ key ≠ data.sendReceipt := by
    rw [UInt32.lt_iff_toNat_lt, UInt32.lt_iff_toNat_lt, ne_eq, ← UInt32.toNat_inj]
    omega
  rw [hgt]
  by_cases hlt : key < data.sendReceipt
  · simp [updatedVariablesListPtrComp, hlt]
  · by_cases heq : key = data.sendReceipt <;> simp [updatedVariablesListPtrComp, heq, hlt]

theorem monotone_of_sorted {list : List ChangedVariablesList}
    (h : list.Pairwise fun a b => a.sendReceipt < b.sendReceipt) (key : UInt32) :
    OrderedList.Monotone updatedVariablesListPtrComp list key := by
  refine h.imp fun {a b} hab => ⟨fun hlt => ?_, fun hgt => ?_⟩
  · exact comp_eq_lt.mpr (UInt32.lt_trans (comp_eq_lt.mp hlt) hab)
  · exact comp_eq_gt.mpr (UInt32.lt_trans hab (comp_eq_gt.mp hgt))

variable (history) in
/-- A receipt that is not in the list yet is put between the smaller and the larger ones. -/
theorem storeChangedVariablesList_spec
    (hsorted : history.updatedVariablesHistory.Pairwise fun a b => a.sendReceipt < b.sendReceipt)
    {receipt : UInt32} (hfresh : ∀ c ∈ history.updatedVariablesHistory, c.sendReceipt ≠ receipt)
    (changed : ChangedVariablesList) :
    ∃ before after, history.updatedVariablesHistory = before ++ after ∧
      history.storeChangedVariablesList changed receipt = { history with
        updatedVariablesHistory :=
          before ++ { changed with sendReceipt := receipt } :: after } ∧
      (∀ c ∈ before, c.sendReceipt < receipt) ∧ ∀ c ∈ after, receipt < c.sendReceipt := by
  have hmono := monotone_of_sorted hsorted receipt
  have hnone : (OrderedList.getIndexFromKey updatedVariablesListPtrComp
      history.updatedVariablesHistory receipt).2 = false := by
    refine Bool.eq_false_iff.mpr fun htrue => ?_
    obtain ⟨c, hc, heq⟩ := (OrderedList.getIndexFromKey_eq_true_iff hmono).mp htrue
    exact hfresh c hc (comp_eq_eq.mp heq).symm
  obtain ⟨before, after, hlist, hindex, hbefore, hafter⟩ :=
    OrderedList.getIndexFromKey_split hmono hnone
  refine ⟨before, after, hlist, ?_, fun c hc => comp_eq_gt.mp (hbefore c hc),
    fun c hc => comp_eq_lt.mp (hafter c hc)⟩
  unfold storeChangedVariablesList
  generalize OrderedList.getIndexFromKey updatedVariablesListPtrComp
    history.updatedVariablesHistory receipt = found at hnone hindex
  obtain ⟨index, exists'⟩ := found
  obtain rfl : exists' = false := hnone
  obtain rfl : index = before.length := hindex
  simp [hlist]

theorem getIndexFromKey_cases
    (hsorted : history.updatedVariablesHistory.Pairwise fun a b => a.sendReceipt < b.sendReceipt)
    (receipt : UInt32) :
    (∃ before changed after,
      history.updatedVariablesHistory = before ++ changed :: after ∧
      changed.sendReceipt = receipt ∧
      OrderedList.getIndexFromKey updatedVariablesListPtrComp history.updatedVariablesHistory
        receipt = (before.length, true)) ∨
    ((∀ c ∈ history.updatedVariablesHistory, c.sendReceipt ≠ receipt) ∧
      ∃ index, OrderedList.getIndexFromKey updatedVariablesListPtrComp
        history.updatedVariablesHistory receipt = (index, false)) := by
  have hmono := monotone_of_sorted hsorted receipt
  have hiff := OrderedList.getIndexFromKey_eq_true_iff hmono
  cases hfound : OrderedList.getIndexFromKey updatedVariablesListPtrComp
      history.updatedVariablesHistory receipt with
  | mk index found =>
    cases found with
    | true =>
      obtain ⟨before, changed, after, hlist, hindex, heq⟩ :=
        OrderedList.getIndexFromKey_at hmono (by rw [hfound])
      rw [hfound] at hindex
      obtain rfl : index = before.length := hindex
      exact Or.inl ⟨before, changed, after, hlist, (comp_eq_eq.mp heq).symm, rfl⟩
    | false =>
      refine Or.inr ⟨fun c hc heq => ?_, index, rfl⟩
      rw [hfound] at hiff
      exact absurd (hiff.mpr ⟨c, hc, comp_eq_eq.mpr heq.symm⟩) (by simp)

/-- What a receipt does to a history: the update is forgotten, and after a loss the variables it
wrote are dirty. -/
theorem onMessageReceipt_spec (h : history.WellFormed n) (receipt : UInt32)
    (messageArrived : Bool) :
    ∃ history', history.onMessageReceipt receipt messageArrived = some history' ∧
      history'.guid = history.guid ∧ history'.WellFormed n ∧
      history'.variableListDeltaTracker.variableList.length =
        history.variableListDeltaTracker.variableList.length ∧
      history'.updatedVariablesHistory ⊆ history.updatedVariablesHistory ∧
      (∀ receipt' i, receipt' ≠ receipt → history.Recorded receipt' i →
        history'.Recorded receipt' i) ∧
      (∀ i, history.Dirty i → history'.Dirty i) ∧
      (∀ i, messageArrived = false → history.Recorded receipt i →
        i < history.variableListDeltaTracker.variableList.length → history'.Dirty i) := by
  rcases getIndexFromKey_cases h.sorted receipt with
    ⟨before, changed, after, hlist, hreceipt, hfound⟩ | ⟨hnone, index, hfound⟩
  · have herase : history.updatedVariablesHistory.eraseIdx before.length = before ++ after := by
      rw [hlist, List.eraseIdx_append_of_length_le (Nat.le_refl _)]
      simp
    have hsorted : (before ++ after).Pairwise fun a b => a.sendReceipt < b.sendReceipt := by
      rw [← herase]
      exact h.sorted.sublist (List.eraseIdx_sublist _ _)
    have hsubset : before ++ after ⊆ history.updatedVariablesHistory := by
      rw [← herase]
      exact (List.eraseIdx_sublist _ _).subset
    have hother : ∀ c ∈ history.updatedVariablesHistory, c.sendReceipt ≠ receipt →
        c ∈ before ++ after := by
      intro c hc hne
      rw [hlist] at hc
      rcases List.mem_append.mp hc with hc | hc
      · exact List.mem_append_left _ hc
      · rcases List.mem_cons.mp hc with rfl | hc
        · exact absurd hreceipt hne
        · exact List.mem_append_right _ hc
    cases messageArrived with
    | true =>
      refine ⟨{ history with updatedVariablesHistory := before ++ after }, ?_, rfl,
        ⟨hsorted, h.size, h.bits, h.slots⟩, rfl, hsubset, ?_, fun i hi => hi,
        fun i hi => absurd hi (by simp)⟩
      · simp [onMessageReceipt, freeVarsAssociatedWithReceipt, hfound, herase]
      · rintro receipt' i hne ⟨c, hc, rfl, hbit⟩
        exact ⟨c, hother c hc hne, rfl, hbit⟩
    | false =>
      obtain ⟨nodes, hflag, hlen, hat⟩ := flagDirtyFrom_spec changed.bitField
        history.variableListDeltaTracker.variableList 0 (by have := h.bits; omega)
      refine ⟨{ history with
          variableListDeltaTracker :=
            { history.variableListDeltaTracker with variableList := nodes }
          updatedVariablesHistory := before ++ after }, ?_, rfl,
        ⟨hsorted, ?_, by simpa [hlen] using h.bits, by simpa [hlen] using h.slots⟩, hlen,
        hsubset, ?_, ?_, ?_⟩
      · have hget : history.updatedVariablesHistory[before.length]? = some changed := by
          simp [hlist]
        simp [onMessageReceipt, dirtyAndFreeVarsAssociatedWithReceipt, hfound, herase, hget,
          flagDirtyFromBitArray, hflag]
      · rcases h.size with hnil | hsize
        · exact Or.inl (List.length_eq_zero_iff.mp (by rw [hlen, hnil]; rfl))
        · exact Or.inr (by rw [← hsize, ← hlen])
      · rintro receipt' i hne ⟨c, hc, rfl, hbit⟩
        exact ⟨c, hother c hc hne, rfl, hbit⟩
      · rintro i ⟨node, hnode, hdirty⟩
        exact ⟨_, hat i node hnode, by simp [hdirty]⟩
      · rintro i - ⟨c, hc, hcr, hbit⟩ hi
        have hsame : c = changed := by
          have hpair := h.sorted
          rw [hlist] at hc hpair
          obtain ⟨-, hpair', hcross⟩ := List.pairwise_append.mp hpair
          rcases List.mem_append.mp hc with hc | hc
          · have hlt := hcross c hc changed List.mem_cons_self
            rw [hcr, hreceipt] at hlt
            exact absurd hlt (UInt32.lt_irrefl receipt)
          · rcases List.mem_cons.mp hc with hc | hc
            · exact hc
            · have hlt := (List.pairwise_cons.mp hpair').1 c hc
              rw [hcr, hreceipt] at hlt
              exact absurd hlt (UInt32.lt_irrefl receipt)
        subst hsame
        exact ⟨_, hat i _ (List.getElem?_eq_getElem hi), by simp [hbit]⟩
  · have hkeep : history.onMessageReceipt receipt messageArrived = some history := by
      cases messageArrived with
      | true => simp [onMessageReceipt, freeVarsAssociatedWithReceipt, hfound]
      | false => simp [onMessageReceipt, dirtyAndFreeVarsAssociatedWithReceipt, hfound]
    refine ⟨history, hkeep, rfl, h, rfl, fun c hc => hc, fun _ _ _ hr => hr, fun _ hi => hi, ?_⟩
    rintro i - ⟨c, hc, hcr, -⟩
    exact absurd hcr (hnone c hc)

theorem writeVars_spec (h : history.WellFormed n) {vars : List Serialization}
    (hlen : vars.length = n)
    (hkeeps : keepsDirty history.variableListDeltaTracker.variableList vars = true)
    (hroom : lastSizeDiffers history.variableListDeltaTracker.variableList vars = true →
      history.variableListDeltaTracker.variableList.length <
        history.variableListDeltaTracker.allocationSize) :
    ∃ flags tracker, history.variableListDeltaTracker.startWrite.writeVars [] vars =
        some (flags, layout [] flags vars, tracker) ∧ flags.length = n ∧
      tracker.variableList.length = n ∧ n ≤ tracker.allocationSize ∧
      ∀ i, history.Dirty i → flags[i]? = some true := by
  obtain ⟨guid, ⟨nodes, slots, next⟩, updates⟩ := history
  dsimp only at hkeeps hroom
  rcases h.size with hnil | hsize
  · obtain rfl : nodes = [] := hnil
    obtain ⟨slots', hslots, hwrite⟩ := @writeVars_new ⟨[], slots, 0⟩ vars rfl (Nat.zero_le _) []
    refine ⟨_, _, hwrite, by simp [hlen], by simp [hlen], by simpa [hlen] using hslots, ?_⟩
    rintro i ⟨node, hnode, -⟩
    simp at hnode
  · have hnodes : nodes.length = vars.length := by rw [hlen]; exact hsize
    have hwrite := writeVars_eq ⟨nodes, slots, 0⟩ [] nodes rfl rfl hnodes []
    obtain ⟨hflags, hnodes'⟩ := length_compareFrom nodes hnodes
    rw [if_neg (fun hfull => by have := hroom hfull.1; have := hfull.2; dsimp only at this; omega)]
      at hwrite
    refine ⟨_, _, hwrite, hflags.trans hlen, ?_, ?_, ?_⟩
    · simpa [hnodes'] using hsize
    · have hle : nodes.length ≤ slots := h.slots
      show n ≤ slots
      omega
    · rintro i ⟨node, hnode, hdirty⟩
      have hi : i < vars.length := by
        rw [← hnodes]
        exact (List.getElem?_eq_some_iff.mp hnode).1
      refine compareFrom_dirty hnode (List.getElem?_eq_getElem hi) hdirty ?_
      rintro j front varFront rfl hfront hvar hdiffers
      exact keepsDirty_spec hkeeps hfront hvar hdiffers hnode (List.getElem?_eq_getElem hi) hdirty

variable (history) in
theorem recorded_store
    (hsorted : history.updatedVariablesHistory.Pairwise fun a b => a.sendReceipt < b.sendReceipt)
    {receipt : UInt32} (hfresh : ∀ c ∈ history.updatedVariablesHistory, c.sendReceipt ≠ receipt)
    (changed : ChangedVariablesList) :
    ((history.storeChangedVariablesList changed receipt).updatedVariablesHistory.Pairwise
      fun a b => a.sendReceipt < b.sendReceipt) ∧
    (∀ c, c ∈ (history.storeChangedVariablesList changed receipt).updatedVariablesHistory ↔
      c = { changed with sendReceipt := receipt } ∨ c ∈ history.updatedVariablesHistory) := by
  obtain ⟨before, after, hlist, hstore, hbefore, hafter⟩ :=
    storeChangedVariablesList_spec history hsorted hfresh changed
  rw [hlist, List.pairwise_append] at hsorted
  obtain ⟨hpre, hpost, hcross⟩ := hsorted
  rw [hstore]
  constructor
  · refine List.pairwise_append.mpr ⟨hpre, List.pairwise_cons.mpr ⟨hafter, hpost⟩, ?_⟩
    intro a ha b hb
    rcases List.mem_cons.mp hb with rfl | hb
    · exact hbefore a ha
    · exact hcross a ha b hb
  · intro c
    rw [hlist]
    simp only [List.mem_append, List.mem_cons]
    tauto

end RemoteSystemVariableHistory

namespace VariableDeltaSerializer

open RemoteSystemVariableHistory

variable {s : VariableDeltaSerializer} {guid : RakNetGUID} {history : RemoteSystemVariableHistory}

/-- The serializer after an update that had these results. -/
def updated (s : VariableDeltaSerializer) (history : RemoteSystemVariableHistory) (u : AckedUpdate)
    (flags bitStream : List Bool) (tracker : VariableListDeltaTracker) (bitField : ℕ → UInt8) :
    VariableDeltaSerializer × List Bool :=
  if flags.any id then
    ({ s with remoteSystemVariableHistoryList :=
        [{ history with variableListDeltaTracker := tracker }.storeChangedVariablesList
          ⟨u.memory.sendReceipt, u.vars.length, bitField⟩ u.sendReceipt] }, bitStream)
  else
    ({ s with remoteSystemVariableHistoryList :=
        [{ history with variableListDeltaTracker := tracker }] }, [])

theorem unreliableAckedUpdate_eq (h : s.HasHistory guid history) {u : AckedUpdate}
    (hvars : u.vars ≠ []) :
    s.unreliableAckedUpdate guid u =
      (history.variableListDeltaTracker.startWrite.writeVars [] u.vars).bind
        fun (flags, bitStream, tracker) =>
          (recordBits (allocChangedVariablesList u.memory).bitField 0 flags).map fun bitField =>
            s.updated history u flags bitStream tracker bitField := by
  have hstart := startVariableHistoryWrite_spec h
  rw [unreliableAckedUpdate, beginUnreliableAckedSerialize]
  simp only [SerializationContext.new, hstart]
  rw [serializeVariables_acked _ rfl rfl rfl hvars]
  simp only [allocChangedVariablesList]
  cases hwrite : history.variableListDeltaTracker.startWrite.writeVars [] u.vars with
  | none => rfl
  | some written =>
    obtain ⟨flags, bitStream, tracker⟩ := written
    simp only [Option.bind_some, Option.map_map]
    congr 1
    funext bitField
    by_cases hany : flags.any id
    · simp [endSerialize, updated, hany, setTracker]
    · simp [endSerialize, updated, hany, setTracker]

theorem onMessageReceipt_hasHistory (h : s.HasHistory guid history) {receipt : UInt32}
    {messageArrived : Bool} {history' : RemoteSystemVariableHistory}
    (hreceipt : history.onMessageReceipt receipt messageArrived = some history')
    (hguid : history'.guid = history.guid) :
    ∃ s', s.onMessageReceipt guid receipt messageArrived = some s' ∧ s'.HasHistory guid history' := by
  obtain ⟨list, did, bs⟩ := s
  obtain ⟨hguid', hlist | ⟨hlist, rfl⟩⟩ := h
  · obtain rfl : list = [history] := hlist
    refine ⟨⟨[history'], did, bs⟩, ?_, hguid.trans hguid', Or.inl rfl⟩
    simp [VariableDeltaSerializer.onMessageReceipt, getRemoteSystemHistoryListIndex, hguid',
      hreceipt, setHistory]
  · obtain rfl : list = [] := hlist
    have hsame : history' = .new guid := by
      cases messageArrived with
      | true => exact (Option.some.inj hreceipt).symm
      | false => exact (Option.some.inj hreceipt).symm
    exact ⟨⟨[], did, bs⟩, rfl, hguid.trans hguid', Or.inr ⟨rfl, hsame⟩⟩

theorem unreliableAckedUpdate_spec {n : ℕ} (h : s.HasHistory guid history)
    (hwf : history.WellFormed n) {u : AckedUpdate} (hlen : u.vars.length = n) (hpos : 0 < n)
    (hgood : KeepsFlags guid (some s) (.update u))
    (hfresh : ∀ c ∈ history.updatedVariablesHistory, c.sendReceipt ≠ u.sendReceipt) :
    ∃ s' bitStream history' flags, s.unreliableAckedUpdate guid u = some (s', bitStream) ∧
      s'.HasHistory guid history' ∧ history'.WellFormed n ∧ flags.length = n ∧
      history'.variableListDeltaTracker.variableList.length = n ∧
      (bitStream = layout [] flags u.vars ∨ bitStream = [] ∧ flags.any id = false) ∧
      (∀ i, history.Dirty i → flags[i]? = some true) ∧
      (∀ i, flags[i]? = some true → history'.Recorded u.sendReceipt i) ∧
      (∀ receipt i, history.Recorded receipt i → history'.Recorded receipt i) ∧
      ∀ c ∈ history'.updatedVariablesHistory,
        c.sendReceipt = u.sendReceipt ∨ c ∈ history.updatedVariablesHistory := by
  obtain ⟨hroom, hkeeps⟩ := hgood
  have hflagsKept : keepsDirty history.variableListDeltaTracker.variableList u.vars = true ∧
      (lastSizeDiffers history.variableListDeltaTracker.variableList u.vars = true →
        history.variableListDeltaTracker.variableList.length <
          history.variableListDeltaTracker.allocationSize) := by
    obtain ⟨hguid, hlist | ⟨-, rfl⟩⟩ := h
    · exact hkeeps history (by simp [hlist]) hguid
    · exact ⟨rfl, fun hlast => by cases u.vars <;> simp [RemoteSystemVariableHistory.new, VariableListDeltaTracker.new, lastSizeDiffers] at hlast⟩
  obtain ⟨flags, tracker, hwrite, hflags, hnodes, hslots, hdirty⟩ :=
    writeVars_spec hwf hlen hflagsKept.1 hflagsKept.2
  obtain ⟨bitField, hrecord, hholds⟩ := recordBits_holds flags
    (holds_nil (allocChangedVariablesList u.memory).bitField) (by simp; omega)
  have hvars : u.vars ≠ [] := by
    rintro hnil
    simp [hnil] at hlen
    omega
  have hupdate := unreliableAckedUpdate_eq h hvars
  rw [hwrite, Option.bind_some] at hupdate
  simp only [List.length_nil] at hrecord
  simp only [hrecord, Option.map_some] at hupdate
  have hbits : tracker.variableList.length ≤ bitFieldSize * 8 := by omega
  cases hany : flags.any id with
  | false =>
    rw [updated, hany, if_neg (by simp)] at hupdate
    refine ⟨_, _, { history with variableListDeltaTracker := tracker }, flags, hupdate,
      ⟨h.1, Or.inl rfl⟩, ⟨hwf.sorted, Or.inr hnodes, hbits, by dsimp only; omega⟩, hflags, hnodes,
      Or.inr ⟨rfl, hany⟩, hdirty, ?_, fun _ _ hr => hr, fun c hc => Or.inr hc⟩
    intro i hi
    have htrue : flags.any id = true := List.any_eq_true.mpr ⟨true, List.mem_of_getElem? hi, rfl⟩
    rw [hany] at htrue
    exact absurd htrue (by simp)
  | true =>
    rw [updated, hany, if_pos rfl] at hupdate
    obtain ⟨hsorted, hmem⟩ := recorded_store { history with variableListDeltaTracker := tracker }
      hwf.sorted hfresh ⟨u.memory.sendReceipt, u.vars.length, bitField⟩
    obtain ⟨before, after, -, hstore, -⟩ := storeChangedVariablesList_spec
      { history with variableListDeltaTracker := tracker } hwf.sorted hfresh
      ⟨u.memory.sendReceipt, u.vars.length, bitField⟩
    refine ⟨_, _, _, flags, hupdate, ⟨?_, Or.inl rfl⟩, ⟨hsorted, ?_, ?_, ?_⟩, hflags, ?_,
      Or.inl rfl, hdirty, ?_, ?_, ?_⟩
    · rw [hstore]
      exact h.1
    · rw [hstore]
      exact Or.inr hnodes
    · rw [hstore]
      exact hbits
    · rw [hstore]
      dsimp only
      omega
    · rw [hstore]
      exact hnodes
    · intro i hi
      refine ⟨_, (hmem _).mpr (Or.inl rfl), rfl, ?_⟩
      have hlt : i < flags.length := (List.getElem?_eq_some_iff.mp hi).1
      rw [show bitAt bitField i = _ from hholds.bitAt_eq (by simpa using hlt)]
      simp [hi]
    · rintro receipt i ⟨c, hc, hcr, hbit⟩
      exact ⟨c, (hmem c).mpr (Or.inr hc), hcr, hbit⟩
    · intro c hc
      rcases (hmem c).mp hc with rfl | hc
      · exact Or.inl rfl
      · exact Or.inr hc

end VariableDeltaSerializer

end SLikeNet
