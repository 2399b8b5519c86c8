import SLikeNet.ChangedVariables

/-! One serialization of variables that are written alike to every remote system: what it writes
depends on whether it is the first of its tick and whether the remote system is new. -/

namespace SLikeNet

open VariableListDeltaTracker

/-- What the tracker keeps of variables that were written. -/
def recorded (vars : List Serialization) : List VariableLastValueNode :=
  vars.map fun varData => ⟨varData.data, false⟩

/-- The variables whose bytes are not those recorded. -/
def changed (nodes : List VariableLastValueNode) (vars : List Serialization) : List Bool :=
  List.zipWith (fun node varData => decide (varData.data ≠ node.lastData)) nodes vars

theorem compareFrom_clean {nodes : List VariableLastValueNode} {vars : List Serialization}
    (hclean : ∀ node ∈ nodes, node.isDirty = false) (hlen : nodes.length = vars.length) :
    compareFrom nodes vars = (changed nodes vars, recorded vars) := by
  induction vars generalizing nodes with
  | nil =>
    obtain rfl := List.length_eq_zero_iff.mp hlen
    rfl
  | cons varData rest ih =>
    cases nodes with
    | nil => simp at hlen
    | cons node nodes =>
      have hnode : node.isDirty = false := hclean node List.mem_cons_self
      have hnodes : ∀ node ∈ nodes, node.isDirty = false :=
        fun node hmem => hclean node (List.mem_cons_of_mem _ hmem)
      have hhead : clearHead nodes = nodes := by
        cases nodes with
        | nil => rfl
        | cons second nodes =>
          have hsecond := hnodes second List.mem_cons_self
          rw [clearHead, List.modifyHead_cons, ← hsecond]
      rw [compareFrom, hhead, ih hnodes (Nat.succ.inj hlen)]
      by_cases hsize : node.sizeDiffers varData
      · have hdata : varData.data ≠ node.lastData := by
          intro heq
          simp [VariableLastValueNode.sizeDiffers, VariableLastValueNode.byteLength, heq] at hsize
        simp [hsize, changed, recorded, hdata, hnode]
      · by_cases hdata : varData.data = node.lastData
        · have heta : node = ⟨node.lastData, false⟩ := by rw [← hnode]
          simp [hsize, changed, recorded, hdata, hnode, ← heta]
        · simp [hsize, changed, recorded, hdata]

namespace VariableDeltaSerializer

/-- `BeginIdenticalSerialize`, one `SerializeVariable` for each variable, `EndSerialize`. -/
def identicalUpdate (s : VariableDeltaSerializer) (isFirstSerializeToThisSystem : Bool)
    (context : SerializationContext) (vars : List Serialization) :
    Option (VariableDeltaSerializer × List Bool) :=
  let (s', context) := s.beginIdenticalSerialize (.new context) isFirstSerializeToThisSystem []
  (s'.serializeVariables context vars).map fun (s'', context') => s''.endSerialize context'

/-- The tracker for all systems holds these nodes in an array with so many slots. -/
def Records (s : VariableDeltaSerializer) (nodes : List VariableLastValueNode) (slots : ℕ) : Prop :=
  ∃ history, s.HasHistory .unassigned history ∧
    history.variableListDeltaTracker.variableList = nodes ∧
    history.variableListDeltaTracker.allocationSize = slots

theorem records_new : new.Records [] 0 :=
  ⟨.new .unassigned, ⟨rfl, Or.inr ⟨rfl, rfl⟩⟩, rfl, rfl⟩

theorem serializeVariables_known {s : VariableDeltaSerializer} (context : SerializationContext)
    {history : RemoteSystemVariableHistory}
    (hhistory : s.remoteSystemVariableHistoryList[context.variableHistory]? = some history)
    (hnew : context.newSystemSend = true)
    (hknown : history.variableListDeltaTracker.isPastEndOfList = false)
    {vars : List Serialization} (hvars : vars ≠ []) :
    s.serializeVariables context vars = some (s, { context with
      bitStream := layout context.bitStream (List.replicate vars.length true) vars
      anyVariablesWritten := true }) := by
  induction vars generalizing context with
  | nil => exact absurd rfl hvars
  | cons varData rest ih =>
    have hone : s.serializeVariable context varData = some (s, { context with
        bitStream := writeFlagged context.bitStream true varData
        anyVariablesWritten := true }) := by
      rw [serializeVariable, hhistory]
      simp [hnew, hknown]
    rw [serializeVariables, hone, Option.bind_some]
    by_cases hrest : rest = []
    · subst hrest
      rfl
    · exact ih { context with
          bitStream := writeFlagged context.bitStream true varData
          anyVariablesWritten := true } hhistory hnew hrest

theorem serializeVariables_first {s : VariableDeltaSerializer} (context : SerializationContext)
    {history : RemoteSystemVariableHistory}
    (hhistory : s.remoteSystemVariableHistoryList[context.variableHistory]? = some history)
    (hnew : context.newSystemSend = true)
    (hnext : history.variableListDeltaTracker.nextWriteIndex =
      history.variableListDeltaTracker.variableList.length)
    {vars : List Serialization} (hvars : vars ≠ []) :
    s.serializeVariables context vars =
      (history.variableListDeltaTracker.writeVars context.bitStream vars).map
        fun (_, bitStream, tracker) =>
          (s.setTracker context.variableHistory tracker,
            { context with bitStream := bitStream, anyVariablesWritten := true }) := by
  induction vars generalizing s context history with
  | nil => exact absurd rfl hvars
  | cons varData rest ih =>
    have hpast : history.variableListDeltaTracker.isPastEndOfList = true := by
      simp [isPastEndOfList, hnext]
    have hwrite : history.variableListDeltaTracker.writeVar varData =
        some (true, { history.variableListDeltaTracker.push ⟨varData.data, false⟩ with
          nextWriteIndex := history.variableListDeltaTracker.nextWriteIndex + 1 }) := by
      simp [writeVar, hnext]
    have hone : s.serializeVariable context varData =
        (s.serializeChanged context history.variableListDeltaTracker varData).map
          fun (s', context') => (s', { context' with anyVariablesWritten := true }) := by
      rw [serializeVariable, hhistory]
      simp [hnew, hpast]
    rw [serializeVariables, hone, serializeChanged, writeVars, writeVarToBitstream, hwrite]
    simp only [Option.map_some, Option.bind_some]
    by_cases hrest : rest = []
    · subst hrest
      simp [serializeVariables, writeVars]
    · have hrun := ih { context with
          bitStream := writeFlagged context.bitStream true varData
          anyVariablesWritten := true }
        (getElem?_setTracker hhistory
          { history.variableListDeltaTracker.push ⟨varData.data, false⟩ with
            nextWriteIndex := history.variableListDeltaTracker.nextWriteIndex + 1 }) hnew
        (by simp [push, hnext]) hrest
      rw [hrun]
      simp [setTracker_setTracker, Function.comp_def]

theorem beginIdenticalSerialize_spec {s : VariableDeltaSerializer}
    {nodes : List VariableLastValueNode} {slots : ℕ} (h : s.Records nodes slots)
    (context : SerializationContext) (isFirst : Bool) :
    ∃ history : RemoteSystemVariableHistory, history.guid = .unassigned ∧
      history.variableListDeltaTracker = ⟨nodes, slots, 0⟩ ∧
      s.beginIdenticalSerialize (.new context) isFirst [] =
        ({ s with remoteSystemVariableHistoryList := [history] },
          { context with
            anyVariablesWritten := false
            guid := .unassigned
            bitStream := []
            serializationMode := .reliable
            variableHistoryIdentical := some 0
            variableHistoryUnique := none
            variableHistory := 0
            newSystemSend := isFirst }) := by
  obtain ⟨history, hhistory, rfl, rfl⟩ := h
  refine ⟨{ history with variableListDeltaTracker := history.variableListDeltaTracker.startWrite },
    hhistory.1, rfl, ?_⟩
  rw [beginIdenticalSerialize]
  simp only [SerializationContext.new, startVariableHistoryWrite_spec hhistory]

/-- What one serialization leaves behind: the stream it gave, the stream for the systems after it,
and what is recorded. -/
structure Served (s : VariableDeltaSerializer) (nodes : List VariableLastValueNode) (slots : ℕ)
    (bs : List Bool) : Prop where
  records : s.Records nodes slots
  did : s.didComparisonThisTick = true
  cached : s.identicalSerializationBs = bs

variable {s : VariableDeltaSerializer} {nodes : List VariableLastValueNode} {slots : ℕ}
  {vars : List Serialization}

theorem served_single {history : RemoteSystemVariableHistory} {next : ℕ}
    (hguid : history.guid = .unassigned)
    (htracker : history.variableListDeltaTracker = ⟨nodes, slots, next⟩) (bs : List Bool) :
    Served ⟨[history], true, bs⟩ nodes slots bs :=
  ⟨⟨history, ⟨hguid, Or.inl rfl⟩, by rw [htracker], by rw [htracker]⟩, rfl, rfl⟩

theorem served_set {history : RemoteSystemVariableHistory} (hguid : history.guid = .unassigned)
    (next : ℕ) (bs : List Bool) :
    Served ⟨[{ history with variableListDeltaTracker := ⟨nodes, slots, next⟩ }], true, bs⟩ nodes
      slots bs :=
  @served_single nodes slots { history with variableListDeltaTracker := ⟨nodes, slots, next⟩ } next
    hguid rfl bs

theorem identicalUpdate_first (h : s.Records [] slots) (hdid : s.didComparisonThisTick = false)
    (hvars : vars ≠ []) (context : SerializationContext) :
    ∃ s' slots', s.identicalUpdate true context vars =
        some (s', layout [] (List.replicate vars.length true) vars) ∧ vars.length ≤ slots' ∧
      s'.Served (recorded vars) slots' (layout [] (List.replicate vars.length true) vars) := by
  obtain ⟨history, hguid, htracker, hbegin⟩ := beginIdenticalSerialize_spec h context true
  obtain ⟨slots', hslots, hwrite⟩ := @writeVars_new ⟨[], slots, 0⟩ vars rfl (Nat.zero_le _) []
  rw [identicalUpdate, hbegin]
  have hrun := fun context' hcontext hnew => @serializeVariables_first
    { s with remoteSystemVariableHistoryList := [history] } context' history hcontext hnew
    (by rw [htracker]; rfl) vars hvars
  simp only
  rw [hrun _ rfl rfl, htracker]
  simp only [hwrite, Option.map_some]
  refine ⟨⟨[{ history with variableListDeltaTracker := ⟨recorded vars, slots', vars.length⟩ }], true,
    layout [] (List.replicate vars.length true) vars⟩, slots', ?_, by simpa using hslots,
    served_set hguid _ _⟩
  simp [endSerialize, hdid, setTracker, recorded]

theorem identicalUpdate_known (h : s.Records nodes slots) (hnodes : nodes ≠ []) (hvars : vars ≠ [])
    (context : SerializationContext) :
    ∃ s', s.identicalUpdate true context vars = some (s', if s.didComparisonThisTick then
        layout [] (List.replicate vars.length true) vars ++ s.identicalSerializationBs
      else layout [] (List.replicate vars.length true) vars) ∧
      s'.Served nodes slots (if s.didComparisonThisTick then s.identicalSerializationBs
        else layout [] (List.replicate vars.length true) vars) := by
  obtain ⟨history, hguid, htracker, hbegin⟩ := beginIdenticalSerialize_spec h context true
  have hknown : history.variableListDeltaTracker.isPastEndOfList = false := by
    rw [htracker]
    simpa [isPastEndOfList] using hnodes
  rw [identicalUpdate, hbegin]
  have hrun := fun context' hcontext hnew => @serializeVariables_known
    { s with remoteSystemVariableHistoryList := [history] } context' history hcontext hnew
    hknown vars hvars
  simp only
  rw [hrun _ rfl rfl]
  cases hdid : s.didComparisonThisTick with
  | true =>
    refine ⟨⟨[history], true, s.identicalSerializationBs⟩, ?_, served_single hguid htracker _⟩
    simp [endSerialize]
  | false =>
    refine ⟨⟨[history], true, layout [] (List.replicate vars.length true) vars⟩, ?_,
      served_single hguid htracker _⟩
    simp [endSerialize]

theorem identicalUpdate_later (h : s.Records nodes slots) (hdid : s.didComparisonThisTick = true)
    (vars : List Serialization) (context : SerializationContext) :
    ∃ s', s.identicalUpdate false context vars = some (s', s.identicalSerializationBs) ∧
      s'.Served nodes slots s.identicalSerializationBs := by
  obtain ⟨history, hguid, htracker, hbegin⟩ := beginIdenticalSerialize_spec h context false
  rw [identicalUpdate, hbegin]
  have hskip : ∀ (context' : SerializationContext), context'.variableHistory = 0 →
      context'.newSystemSend = false → context'.serializationMode = .reliable →
      context'.variableHistoryIdentical = some 0 →
      serializeVariables { s with remoteSystemVariableHistoryList := [history] } context' vars =
        some ({ s with remoteSystemVariableHistoryList := [history] }, context') := by
    intro context' hhistory hnew hmode hidentical
    induction vars with
    | nil => rfl
    | cons varData rest ih =>
      have hone : serializeVariable { s with remoteSystemVariableHistoryList := [history] } context'
          varData = some ({ s with remoteSystemVariableHistoryList := [history] }, context') := by
        simp [serializeVariable, hhistory, hnew, hmode, hidentical, hdid]
      rw [serializeVariables, hone]
      exact ih
  simp only
  rw [hskip _ rfl rfl rfl rfl]
  refine ⟨⟨[history], true, s.identicalSerializationBs⟩, ?_, served_single hguid htracker _⟩
  simp [endSerialize, hdid]

theorem identicalUpdate_compare (h : s.Records nodes slots)
    (hdid : s.didComparisonThisTick = false) (hvars : vars ≠ [])
    (hlen : nodes.length = vars.length) (hclean : ∀ node ∈ nodes, node.isDirty = false)
    (context : SerializationContext) :
    if lastSizeDiffers nodes vars ∧ slots ≤ nodes.length then
      s.identicalUpdate false context vars = none
    else
      ∃ s' bs, s.identicalUpdate false context vars = some (s', bs) ∧
        s'.Served (recorded vars) slots bs ∧
        (bs = layout [] (changed nodes vars) vars ∨ bs = [] ∧ (changed nodes vars).any id = false) := by
  obtain ⟨history, hguid, htracker, hbegin⟩ := beginIdenticalSerialize_spec h context false
  rw [identicalUpdate, hbegin]
  have hwrite := writeVars_eq ⟨nodes, slots, 0⟩ [] nodes rfl rfl hlen []
  rw [compareFrom_clean hclean hlen] at hwrite
  have hrun := fun context' hcontext hnew hmode hcompare => @serializeVariables_changed
    { s with remoteSystemVariableHistoryList := [history] } context' history hcontext hnew hmode
    hcompare vars hvars
  simp only
  rw [hrun _ rfl rfl (by simp) (by simp [hdid]), htracker]
  simp only [hwrite]
  by_cases hfull : lastSizeDiffers nodes vars ∧ slots ≤ nodes.length
  · simp [hfull]
  · rw [if_neg hfull, if_neg hfull]
    simp only [Option.map_some]
    cases hany : (changed nodes vars).any id with
    | false =>
      refine ⟨⟨[{ history with variableListDeltaTracker := ⟨recorded vars, slots, nodes.length⟩ }],
        true, []⟩, [], ?_, served_set hguid _ _, Or.inr ⟨rfl, rfl⟩⟩
      simp [endSerialize, hdid, setTracker]
    | true =>
      refine ⟨⟨[{ history with variableListDeltaTracker := ⟨recorded vars, slots, nodes.length⟩ }],
        true, layout [] (changed nodes vars) vars⟩, _, ?_, served_set hguid _ _, Or.inl rfl⟩
      simp [endSerialize, hdid, setTracker]

end VariableDeltaSerializer

end SLikeNet
