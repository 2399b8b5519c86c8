import SLikeNet.VariableDeltaSerializer

/-! What a run of `WriteVarToBitstream` over a list of variables writes, and what it leaves in
the tracker and in the array of bits. -/

namespace SLikeNet

open BitMemory

namespace VariableListDeltaTracker

/-- The flags written, the stream and the tracker after one `WriteVarToBitstream` for each
variable. -/
def writeVars : VariableListDeltaTracker → List Bool → List Serialization →
    Option (List Bool × List Bool × VariableListDeltaTracker)
  | t, bitStream, [] => some ([], bitStream, t)
  | t, bitStream, varData :: rest =>
    (t.writeVarToBitstream varData bitStream).bind fun (flag, bitStream', t') =>
      (writeVars t' bitStream' rest).map fun (flags, bitStream'', t'') =>
        (flag :: flags, bitStream'', t'')

/-- A stream to which each variable was written behind its flag. -/
def layout : List Bool → List Bool → List Serialization → List Bool
  | bitStream, flag :: flags, varData :: rest =>
    layout (writeFlagged bitStream flag varData) flags rest
  | bitStream, _, _ => bitStream

/-- The slip of the exit for another size, on the nodes behind. -/
def clearHead (nodes : List VariableLastValueNode) : List VariableLastValueNode :=
  nodes.modifyHead fun node => { node with isDirty := false }

/-- The flags that are written for the nodes, and the nodes afterwards. -/
def compareFrom : List VariableLastValueNode → List Serialization →
    List Bool × List VariableLastValueNode
  | node :: nodes, varData :: rest =>
    if node.sizeDiffers varData then
      let r := compareFrom (clearHead nodes) rest
      (true :: r.1, { node with lastData := varData.data } :: r.2)
    else if node.isDirty = false ∧ varData.data = node.lastData then
      let r := compareFrom nodes rest
      (false :: r.1, node :: r.2)
    else
      let r := compareFrom nodes rest
      (true :: r.1, ⟨varData.data, false⟩ :: r.2)
  | nodes, _ => ([], nodes)

/-- The last of the variables has another size. -/
def lastSizeDiffers : List VariableLastValueNode → List Serialization → Bool
  | [node], [varData] => node.sizeDiffers varData
  | _ :: nodes, _ :: rest => lastSizeDiffers nodes rest
  | _, _ => false

@[simp] theorem length_clearHead (nodes : List VariableLastValueNode) :
    (clearHead nodes).length = nodes.length := List.length_modifyHead

theorem lastSizeDiffers_clearHead (nodes : List VariableLastValueNode)
    (vars : List Serialization) :
    lastSizeDiffers (clearHead nodes) vars = lastSizeDiffers nodes vars := by
  rcases nodes with _ | ⟨node, _ | ⟨node', nodes⟩⟩ <;> rcases vars with _ | ⟨varData, _ | _⟩ <;> rfl

theorem clearDirty_length (t : VariableListDeltaTracker) (done nodes : List VariableLastValueNode)
    (hlist : t.variableList = done ++ nodes) :
    t.clearDirty done.length =
      if nodes = [] ∧ t.allocationSize ≤ done.length then none
      else some { t with variableList := done ++ clearHead nodes } := by
  obtain ⟨list, slots, next⟩ := t
  subst hlist
  cases nodes with
  | nil =>
    by_cases hroom : done.length < slots
    · simp [clearDirty, clearHead, hroom]
    · simp [clearDirty, Nat.le_of_not_lt hroom]
  | cons node nodes =>
    have hmodify : ∀ f : VariableLastValueNode → VariableLastValueNode,
        (done ++ node :: nodes).modify done.length f = done ++ f node :: nodes := by
      intro f
      rw [List.modify_eq_take_cons_drop (by simp)]
      simp
    simp [clearDirty, clearHead, hmodify]

theorem writeVar_node {t : VariableListDeltaTracker} {done nodes : List VariableLastValueNode}
    {node : VariableLastValueNode} (hlist : t.variableList = done ++ node :: nodes)
    (hnext : t.nextWriteIndex = done.length) (varData : Serialization) :
    t.writeVar varData =
      if node.sizeDiffers varData then
        if nodes = [] ∧ t.allocationSize ≤ done.length + 1 then none
        else some (true, ⟨done ++ { node with lastData := varData.data } :: clearHead nodes,
          t.allocationSize, done.length + 1⟩)
      else if node.isDirty = false ∧ varData.data = node.lastData then
        some (false, ⟨done ++ node :: nodes, t.allocationSize, done.length + 1⟩)
      else some (true, ⟨done ++ ⟨varData.data, false⟩ :: nodes, t.allocationSize,
        done.length + 1⟩) := by
  obtain ⟨list, slots, next⟩ := t
  subst hlist hnext
  have hset : ∀ node', (done ++ node :: nodes).set done.length node' = done ++ node' :: nodes := by
    intro node'
    simp
  by_cases hsize : node.sizeDiffers varData
  · have hclear := clearDirty_length ⟨done ++ { node with lastData := varData.data } :: nodes, slots,
      done.length + 1⟩ (done ++ [{ node with lastData := varData.data }]) nodes (by simp)
    rw [List.length_append, List.length_singleton] at hclear
    simp only [writeVar, List.getElem?_append_right (Nat.le_refl _), Nat.sub_self,
      List.getElem?_cons_zero, hsize, if_true, hset, hclear]
    by_cases hroom : nodes = [] ∧ slots ≤ done.length + 1
    · simp [hroom]
    · simp [hroom]
  · simp [writeVar, hsize, hset]

theorem writeVars_eq (t : VariableListDeltaTracker) (done nodes : List VariableLastValueNode)
    {vars : List Serialization} (hlist : t.variableList = done ++ nodes)
    (hnext : t.nextWriteIndex = done.length) (hlen : nodes.length = vars.length)
    (bitStream : List Bool) :
    t.writeVars bitStream vars =
      if lastSizeDiffers nodes vars ∧ t.allocationSize ≤ t.variableList.length then none
      else some ((compareFrom nodes vars).1, layout bitStream (compareFrom nodes vars).1 vars,
        ⟨done ++ (compareFrom nodes vars).2, t.allocationSize, t.variableList.length⟩) := by
  induction vars generalizing t done nodes bitStream with
  | nil =>
    obtain ⟨list, slots, next⟩ := t
    subst hlist hnext
    obtain rfl := List.length_eq_zero_iff.mp hlen
    simp [writeVars, lastSizeDiffers, compareFrom, layout]
  | cons varData rest ih =>
    cases nodes with
    | nil => simp at hlen
    | cons node nodes =>
      have hlen' : nodes.length = rest.length := Nat.succ.inj hlen
      have hcount : t.variableList.length = done.length + 1 + nodes.length := by
        simp [hlist]
        omega
      have hrest : ∀ (node' : VariableLastValueNode) (nodes' : List VariableLastValueNode)
          (flag : Bool), nodes'.length = nodes.length →
          lastSizeDiffers (node :: nodes) (varData :: rest) = lastSizeDiffers nodes' rest →
          (writeVars ⟨done ++ node' :: nodes', t.allocationSize, done.length + 1⟩
            (writeFlagged bitStream flag varData) rest).map
              (fun (flags, bitStream'', t'') => (flag :: flags, bitStream'', t'')) =
          if lastSizeDiffers (node :: nodes) (varData :: rest) ∧
              t.allocationSize ≤ t.variableList.length then none
          else some (flag :: (compareFrom nodes' rest).1,
            layout bitStream (flag :: (compareFrom nodes' rest).1) (varData :: rest),
            ⟨done ++ node' :: (compareFrom nodes' rest).2, t.allocationSize,
              t.variableList.length⟩) := by
        intro node' nodes' flag hnodes hdiffers
        have hcount' : (done ++ node' :: nodes').length = t.variableList.length := by
          simp [hcount, hnodes]
          omega
        rw [ih _ (done ++ [node']) nodes' (by simp) (by simp) (by omega), hdiffers]
        simp only [hcount']
        by_cases hfail : lastSizeDiffers nodes' rest ∧ t.allocationSize ≤ t.variableList.length
        · simp [hfail]
        · simp [hfail, layout]
      have hdiffers : nodes ≠ [] ∨ node.sizeDiffers varData = false →
          lastSizeDiffers (node :: nodes) (varData :: rest) = lastSizeDiffers nodes rest := by
        intro h
        rcases nodes with _ | ⟨node', nodes⟩ <;> rcases rest with _ | ⟨varData', rest⟩
        · rcases h with h | h
          · exact absurd rfl h
          · simp [lastSizeDiffers, h]
        · simp at hlen'
        · simp at hlen'
        · rfl
      rw [writeVars, writeVarToBitstream, writeVar_node hlist hnext, compareFrom]
      by_cases hsize : node.sizeDiffers varData
      · by_cases hlast : nodes = []
        · subst hlast
          obtain rfl := List.length_eq_zero_iff.mp hlen'.symm
          by_cases hroom : t.allocationSize ≤ done.length + 1
          · simp [hsize, hroom, lastSizeDiffers, hcount]
          · simp [hsize, hroom, lastSizeDiffers, hcount, writeVars, compareFrom, layout, clearHead]
        · have hclear := hrest { node with lastData := varData.data } (clearHead nodes) true
            (length_clearHead nodes)
            ((hdiffers (Or.inl hlast)).trans (lastSizeDiffers_clearHead nodes rest).symm)
          rw [if_pos hsize, if_neg (fun h => hlast h.1), if_pos hsize]
          exact hclear
      · have hsame := hdiffers (Or.inr (Bool.eq_false_iff.mpr hsize))
        rw [if_neg hsize, if_neg hsize]
        by_cases hequal : node.isDirty = false ∧ varData.data = node.lastData
        · rw [if_pos hequal, if_pos hequal]
          exact hrest node nodes false rfl hsame
        · rw [if_neg hequal, if_neg hequal]
          exact hrest ⟨varData.data, false⟩ nodes true rfl hsame

theorem writeVars_new (t : VariableListDeltaTracker) {vars : List Serialization}
    (hnext : t.nextWriteIndex = t.variableList.length)
    (hslots : t.variableList.length ≤ t.allocationSize) (bitStream : List Bool) :
    ∃ slots, t.variableList.length + vars.length ≤ slots ∧
      t.writeVars bitStream vars =
        some (List.replicate vars.length true,
          layout bitStream (List.replicate vars.length true) vars,
          ⟨t.variableList ++ vars.map fun varData => ⟨varData.data, false⟩, slots,
            t.variableList.length + vars.length⟩) := by
  induction vars generalizing t bitStream with
  | nil =>
    obtain ⟨list, slots, next⟩ := t
    obtain rfl : next = list.length := hnext
    exact ⟨slots, hslots, by simp [writeVars, layout]⟩
  | cons varData rest ih =>
    have hwrite : t.writeVar varData =
        some (true, { t.push ⟨varData.data, false⟩ with nextWriteIndex := t.nextWriteIndex + 1 }) := by
      simp [writeVar, hnext]
    have hpush : (t.push ⟨varData.data, false⟩).variableList.length ≤
        (t.push ⟨varData.data, false⟩).allocationSize := by
      simp only [push, List.length_append, List.length_singleton]
      split
      · split <;> omega
      · omega
    obtain ⟨slots, hle, hih⟩ := ih
      { t.push ⟨varData.data, false⟩ with nextWriteIndex := t.nextWriteIndex + 1 }
      (by simp [push, hnext]) hpush (writeFlagged bitStream true varData)
    simp only [push, List.length_append, List.length_singleton] at hle hih
    refine ⟨slots, by simp only [List.length_cons]; omega, ?_⟩
    simp [writeVars, writeVarToBitstream, hwrite, push, hih, layout, List.replicate_succ,
      Nat.add_assoc, Nat.add_comm 1]

/-! ### What a comparison says -/

@[simp] theorem length_compareFrom (nodes : List VariableLastValueNode) {vars : List Serialization}
    (h : nodes.length = vars.length) :
    (compareFrom nodes vars).1.length = vars.length ∧
      (compareFrom nodes vars).2.length = nodes.length := by
  induction vars generalizing nodes with
  | nil =>
    obtain rfl := List.length_eq_zero_iff.mp h
    exact ⟨rfl, rfl⟩
  | cons varData rest ih =>
    cases nodes with
    | nil => simp at h
    | cons node nodes =>
      have hlen : nodes.length = rest.length := Nat.succ.inj h
      rw [compareFrom]
      by_cases hsize : node.sizeDiffers varData
      · have hclear := ih (clearHead nodes) (by simp [hlen])
        simp [hsize, hclear]
      · by_cases hequal : node.isDirty = false ∧ varData.data = node.lastData
        · simp [hsize, hequal, ih nodes hlen]
        · simp [hsize, hequal, ih nodes hlen]

theorem sizeDiffers_clearHead {nodes : List VariableLastValueNode} {j : ℕ}
    {front : VariableLastValueNode} (h : (clearHead nodes)[j]? = some front)
    (varFront : Serialization) :
    ∃ front', nodes[j]? = some front' ∧ front.sizeDiffers varFront = front'.sizeDiffers varFront := by
  cases j with
  | zero =>
    rw [clearHead, List.getElem?_modifyHead_zero, Option.map_eq_some_iff] at h
    obtain ⟨front', hfront', rfl⟩ := h
    exact ⟨front', hfront', rfl⟩
  | succ j =>
    rw [clearHead, List.getElem?_modifyHead_succ] at h
    exact ⟨front, h, rfl⟩

theorem compareFrom_head {nodes : List VariableLastValueNode} {vars : List Serialization}
    {node : VariableLastValueNode} {varData : Serialization} (hnode : nodes[0]? = some node)
    (hvar : vars[0]? = some varData) (hchanged : varData.data ≠ node.lastData) :
    (compareFrom (clearHead nodes) vars).1[0]? = some true := by
  cases nodes with
  | nil => simp at hnode
  | cons node' nodes =>
    cases vars with
    | nil => simp at hvar
    | cons varData' rest =>
      obtain rfl := Option.some.inj hnode
      obtain rfl := Option.some.inj hvar
      rw [clearHead, List.modifyHead_cons, compareFrom]
      by_cases hsize : { node' with isDirty := false }.sizeDiffers varData'
      · simp [hsize]
      · simp [hsize, hchanged]

/-- A dirty flag is cleared with its variable written, unless the variable in front has another
size and this one has not changed. -/
theorem compareFrom_dirty {nodes : List VariableLastValueNode} {vars : List Serialization}
    {i : ℕ} {node : VariableLastValueNode} {varData : Serialization} (hnode : nodes[i]? = some node)
    (hvar : vars[i]? = some varData) (hdirty : node.isDirty = true)
    (hkeep : ∀ j front varFront, i = j + 1 → nodes[j]? = some front → vars[j]? = some varFront →
      front.sizeDiffers varFront = true → varData.data ≠ node.lastData) :
    (compareFrom nodes vars).1[i]? = some true := by
  induction vars generalizing nodes i with
  | nil => simp at hvar
  | cons varData' rest ih =>
    cases nodes with
    | nil => simp at hnode
    | cons node' nodes =>
      rw [compareFrom]
      cases i with
      | zero =>
        obtain rfl := Option.some.inj hnode
        simp [hdirty]
        by_cases hsize : node'.sizeDiffers varData'
        · simp [hsize]
        · simp [hsize]
      | succ i =>
        rw [List.getElem?_cons_succ] at hnode hvar
        have hrest : ∀ j front varFront, i = j + 1 → nodes[j]? = some front →
            rest[j]? = some varFront → front.sizeDiffers varFront = true →
            varData.data ≠ node.lastData :=
          fun j front varFront hj hf hv => hkeep (j + 1) front varFront (by rw [hj]) hf hv
        by_cases hsize : node'.sizeDiffers varData'
        · rw [if_pos hsize]
          show (compareFrom (clearHead nodes) rest).1[i]? = some true
          cases i with
          | zero =>
            have hchanged := hkeep 0 node' varData' rfl rfl rfl hsize
            exact compareFrom_head hnode hvar hchanged
          | succ i =>
            have hnode' : (clearHead nodes)[i + 1]? = some node := by
              rw [clearHead, List.getElem?_modifyHead_succ, hnode]
            refine ih hnode' hvar fun j front varFront hj hfront hv hdiffers => ?_
            obtain ⟨front', hfront', hsame⟩ := sizeDiffers_clearHead hfront varFront
            exact hrest j front' varFront hj hfront' hv (hsame ▸ hdiffers)
        · by_cases hequal : node'.isDirty = false ∧ varData'.data = node'.lastData
          · simp [hsize, hequal, ih hnode hvar hrest]
          · simp [hsize, hequal, ih hnode hvar hrest]

/-! ### The stream -/

theorem prefix_layout (bitStream flags : List Bool) (vars : List Serialization) :
    bitStream <+: layout bitStream flags vars := by
  induction flags generalizing bitStream vars with
  | nil => simp [layout]
  | cons flag flags ih =>
    cases vars with
    | nil => simp [layout]
    | cons varData rest =>
      refine List.IsPrefix.trans ?_ (ih (writeFlagged bitStream flag varData) rest)
      cases flag with
      | false => exact List.prefix_append _ _
      | true =>
        rw [writeFlagged, if_pos rfl, List.append_assoc]
        exact List.prefix_append _ _

theorem flag_prefix_layout (bitStream flags : List Bool) (flag : Bool) (varData : Serialization)
    (rest : List Serialization) :
    bitStream ++ [flag] <+: layout bitStream (flag :: flags) (varData :: rest) := by
  refine List.IsPrefix.trans ?_ (prefix_layout (writeFlagged bitStream flag varData) flags rest)
  cases flag with
  | false => exact List.prefix_rfl
  | true => exact List.prefix_append _ _

/-! ### The array of bits -/

/-- The results of a run of `WriteVarToBitstream`, put into the array from an offset on. -/
def recordBits : (ℕ → UInt8) → ℕ → List Bool → Option (ℕ → UInt8)
  | bArray, _, [] => some bArray
  | bArray, writeOffset, flag :: flags =>
    (recordBit bArray writeOffset flag).bind fun bArray' =>
      recordBits bArray' (writeOffset + 1) flags

theorem recordBit_holds {bArray : ℕ → UInt8} {bits : List Bool} (h : Holds bArray bits)
    (hroom : bits.length < bitFieldSize * 8) (flag : Bool) :
    ∃ bArray', recordBit bArray bits.length flag = some bArray' ∧ Holds bArray' (bits ++ [flag]) := by
  have hfits : bits.length / 8 < bitFieldSize := by omega
  have hbyte : ∀ j < 8, bit (if flag then 0x80 else 0) j = [flag].getD j false := by
    cases flag with
    | false =>
      intro j hj
      cases j with
      | zero => rfl
      | succ j => simp [bit_zero]
    | true =>
      have htop : ∀ j < 7, bit 0x80 (j + 1) = false := by decide
      intro j hj
      cases j with
      | zero => rfl
      | succ j => simp [htop j (by omega)]
  refine ⟨_, if_pos hfits, h.append hbyte (by simp) ?_ ?_ ?_⟩
  · intro k hk
    rw [if_neg (by omega)]
  · rw [if_pos rfl]
    cases flag with
    | false =>
      by_cases haligned : bits.length % 8 = 0
      · simp [haligned]
      · simp [haligned]
    | true => simp
  · intro hlong
    simp at hlong
    omega

theorem recordBits_holds {bArray : ℕ → UInt8} {bits : List Bool} (flags : List Bool)
    (h : Holds bArray bits) (hroom : bits.length + flags.length ≤ bitFieldSize * 8) :
    ∃ bArray', recordBits bArray bits.length flags = some bArray' ∧
      Holds bArray' (bits ++ flags) := by
  induction flags generalizing bArray bits with
  | nil => exact ⟨bArray, rfl, by simpa using h⟩
  | cons flag flags ih =>
    rw [List.length_cons] at hroom
    obtain ⟨bArray', hrecord, hholds⟩ := recordBit_holds h (by omega) flag
    obtain ⟨bArray'', hrecords, hholds'⟩ := ih hholds (by simp; omega)
    rw [List.length_append, List.length_singleton] at hrecords
    refine ⟨bArray'', ?_, by simpa using hholds'⟩
    rw [recordBits, hrecord, Option.bind_some, hrecords]

theorem flagDirtyFrom_spec (bArray : ℕ → UInt8) (nodes : List VariableLastValueNode)
    (readOffset : ℕ) (hroom : readOffset + nodes.length ≤ bitFieldSize * 8) :
    ∃ nodes', flagDirtyFrom bArray readOffset nodes = some nodes' ∧ nodes'.length = nodes.length ∧
      ∀ (j : ℕ) (node : VariableLastValueNode), nodes[j]? = some node → nodes'[j]? =
        some { node with isDirty := node.isDirty || bitAt bArray (readOffset + j) } := by
  induction nodes generalizing readOffset with
  | nil => exact ⟨[], rfl, rfl, fun j node hj => by simp at hj⟩
  | cons node nodes ih =>
    rw [List.length_cons] at hroom
    obtain ⟨nodes', hflag, hlen, hat⟩ := ih (readOffset + 1) (by omega)
    rw [flagDirtyFrom, if_pos (by omega : readOffset / 8 < bitFieldSize), hflag]
    refine ⟨_, rfl, by simp [hlen], fun j node' hj => ?_⟩
    cases j with
    | zero =>
      obtain rfl := Option.some.inj hj
      have hbit : bitAt bArray readOffset =
          decide (bArray (readOffset / 8) &&& 0x80 >>> UInt8.ofNat (readOffset % 8) ≠ 0) :=
        bit_eq_decide _ (Nat.mod_lt _ (by decide))
      by_cases hset : bArray (readOffset / 8) &&& 0x80 >>> UInt8.ofNat (readOffset % 8) = 0
      · simp [hbit, hset]
      · simp [hbit, hset]
    | succ j =>
      rw [List.getElem?_cons_succ] at hj ⊢
      rw [hat j node' hj, show readOffset + 1 + j = readOffset + (j + 1) by omega]

end VariableListDeltaTracker

namespace VariableDeltaSerializer

open VariableListDeltaTracker

/-! ### Runs of `SerializeVariable` -/

theorem getElem?_setTracker {s : VariableDeltaSerializer} {index : ℕ}
    {history : RemoteSystemVariableHistory}
    (h : s.remoteSystemVariableHistoryList[index]? = some history)
    (tracker : VariableListDeltaTracker) :
    (s.setTracker index tracker).remoteSystemVariableHistoryList[index]? =
      some { history with variableListDeltaTracker := tracker } := by
  simp [setTracker, h]

theorem setTracker_setTracker (s : VariableDeltaSerializer) (index : ℕ)
    (tracker tracker' : VariableListDeltaTracker) :
    (s.setTracker index tracker).setTracker index tracker' = s.setTracker index tracker' := by
  simp [setTracker, List.modify_modify_eq, Function.comp_def]

theorem serializeVariables_changed {s : VariableDeltaSerializer} (context : SerializationContext)
    {history : RemoteSystemVariableHistory}
    (hhistory : s.remoteSystemVariableHistoryList[context.variableHistory]? = some history)
    (hnew : context.newSystemSend = false)
    (hmode : context.serializationMode ≠ .unreliableWithAckReceipt)
    (hcompare : (context.variableHistoryIdentical.isSome && s.didComparisonThisTick) = false)
    {vars : List Serialization} (hvars : vars ≠ []) :
    s.serializeVariables context vars =
      (history.variableListDeltaTracker.writeVars context.bitStream vars).map
        fun (flags, bitStream, tracker) =>
          (s.setTracker context.variableHistory tracker,
            { context with
              bitStream := bitStream
              anyVariablesWritten := context.anyVariablesWritten || flags.any id }) := by
  induction vars generalizing s context history with
  | nil => exact absurd rfl hvars
  | cons varData rest ih =>
    have hone : s.serializeVariable context varData =
        s.serializeChanged context history.variableListDeltaTracker varData := by
      rw [serializeVariable, hhistory]
      simp [hnew, hmode, hcompare]
    rw [serializeVariables, hone, serializeChanged, writeVars]
    cases hwrite : history.variableListDeltaTracker.writeVarToBitstream varData context.bitStream with
    | none => rfl
    | some written =>
      obtain ⟨flag, bitStream, tracker⟩ := written
      simp only [Option.map_some, Option.bind_some]
      by_cases hrest : rest = []
      · subst hrest
        simp [serializeVariables, writeVars]
      · have hrun := ih { context with
            bitStream := bitStream
            anyVariablesWritten := context.anyVariablesWritten || flag }
          (getElem?_setTracker hhistory tracker) hnew hmode hcompare hrest
        rw [hrun]
        simp [setTracker_setTracker, Function.comp_def, Bool.or_assoc]

theorem serializeVariables_acked {s : VariableDeltaSerializer} (context : SerializationContext)
    {history : RemoteSystemVariableHistory}
    (hhistory : s.remoteSystemVariableHistoryList[context.variableHistory]? = some history)
    (hnew : context.newSystemSend = false)
    (hmode : context.serializationMode = .unreliableWithAckReceipt)
    {vars : List Serialization} (hvars : vars ≠ []) :
    s.serializeVariables context vars =
      (history.variableListDeltaTracker.writeVars context.bitStream vars).bind
        fun (flags, bitStream, tracker) =>
          (recordBits context.changedVariables.bitField context.changedVariables.bitWriteIndex
            flags).map fun bitField =>
              (s.setTracker context.variableHistory tracker,
                { context with
                  bitStream := bitStream
                  changedVariables := { context.changedVariables with
                    bitField := bitField
                    bitWriteIndex := context.changedVariables.bitWriteIndex + vars.length }
                  anyVariablesWritten := context.anyVariablesWritten || flags.any id }) := by
  induction vars generalizing s context history with
  | nil => exact absurd rfl hvars
  | cons varData rest ih =>
    have hone : s.serializeVariable context varData =
        s.serializeAcked context history.variableListDeltaTracker varData := by
      rw [serializeVariable, hhistory]
      simp [hnew, hmode]
    rw [serializeVariables, hone, serializeAcked, writeVarToBitArray, writeVars]
    cases hwrite : history.variableListDeltaTracker.writeVarToBitstream varData context.bitStream with
    | none => rfl
    | some written =>
      obtain ⟨flag, bitStream, tracker⟩ := written
      simp only [Option.bind_some]
      cases hrecord : recordBit context.changedVariables.bitField
          context.changedVariables.bitWriteIndex flag with
      | none =>
        cases hwrites : tracker.writeVars bitStream rest with
        | none => rfl
        | some written' =>
          simp [recordBits, hrecord]
      | some bitField =>
        simp only [Option.map_some, Option.bind_some]
        by_cases hrest : rest = []
        · subst hrest
          simp [serializeVariables, writeVars, recordBits, hrecord]
        · have hrun := ih { context with
              bitStream := bitStream
              changedVariables := { context.changedVariables with
                bitField := bitField
                bitWriteIndex := context.changedVariables.bitWriteIndex + 1 }
              anyVariablesWritten := context.anyVariablesWritten || flag }
            (getElem?_setTracker hhistory tracker) hnew hmode hrest
          rw [hrun]
          simp only [setTracker_setTracker]
          cases hwrites : tracker.writeVars bitStream rest with
          | none => rfl
          | some written' =>
            simp [recordBits, hrecord, Bool.or_assoc, Nat.add_assoc, Nat.add_comm 1]

/-- The serializer only keeps the history of one remote system, or none yet. -/
def HasHistory (s : VariableDeltaSerializer) (guid : RakNetGUID)
    (history : RemoteSystemVariableHistory) : Prop :=
  history.guid = guid ∧ (s.remoteSystemVariableHistoryList = [history] ∨
    s.remoteSystemVariableHistoryList = [] ∧ history = .new guid)

theorem startVariableHistoryWrite_spec {s : VariableDeltaSerializer} {guid : RakNetGUID}
    {history : RemoteSystemVariableHistory} (h : s.HasHistory guid history) :
    s.startVariableHistoryWrite guid = (0, { s with remoteSystemVariableHistoryList :=
      [{ history with variableListDeltaTracker := history.variableListDeltaTracker.startWrite }] }) := by
  obtain ⟨list, did, bs⟩ := s
  obtain ⟨hguid, hlist | ⟨hlist, rfl⟩⟩ := h
  · obtain rfl : list = [history] := hlist
    simp [startVariableHistoryWrite, getRemoteSystemHistoryListIndex, hguid]
  · obtain rfl : list = [] := hlist
    simp [startVariableHistoryWrite, getRemoteSystemHistoryListIndex]

end VariableDeltaSerializer

end SLikeNet
