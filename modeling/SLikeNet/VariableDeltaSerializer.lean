import SLikeNet.OrderedList
import SLikeNet.Packet
import SLikeNet.RemoteSystem
import SLikeNet.VariableListDeltaTracker

/-! `VariableDeltaSerializer`: what was last written to each remote system, and what each update
wrote that is still without a receipt. -/

namespace SLikeNet

structure ChangedVariablesList where
  sendReceipt : UInt32
  bitWriteIndex : ℕ
  bitField : ℕ → UInt8

structure RemoteSystemVariableHistory where
  guid : RakNetGUID
  variableListDeltaTracker : VariableListDeltaTracker
  updatedVariablesHistory : List ChangedVariablesList

structure VariableDeltaSerializer where
  remoteSystemVariableHistoryList : List RemoteSystemVariableHistory
  didComparisonThisTick : Bool
  identicalSerializationBs : List Bool

/-- A pointer to a history is its place in `remoteSystemVariableHistoryList`, where histories
stay for as long as a context is in use. -/
structure SerializationContext where
  guid : RakNetGUID
  bitStream : List Bool
  variableHistory : ℕ
  variableHistoryIdentical : Option ℕ
  variableHistoryUnique : Option ℕ
  changedVariables : ChangedVariablesList
  sendReceipt : UInt32
  serializationMode : PacketReliability
  anyVariablesWritten : Bool
  newSystemSend : Bool

/-- The constructor leaves the other fields as they are in `memory`. -/
def SerializationContext.new (memory : SerializationContext) : SerializationContext :=
  { memory with variableHistoryIdentical := none, variableHistoryUnique := none }

/-- `UpdatedVariablesListPtrComp` -/
def updatedVariablesListPtrComp (key : UInt32) (data : ChangedVariablesList) : Ordering :=
  if key < data.sendReceipt then .lt else if key = data.sendReceipt then .eq else .gt

/-- `AllocChangedVariablesList`; the pool does not clear what it hands out. -/
def allocChangedVariablesList (memory : ChangedVariablesList) : ChangedVariablesList where
  sendReceipt := memory.sendReceipt
  bitWriteIndex := 0
  bitField := fun i => if i = 0 then 0 else memory.bitField i

namespace RemoteSystemVariableHistory

def new (guid : RakNetGUID) : RemoteSystemVariableHistory := ⟨guid, .new, []⟩

/-- `StoreChangedVariablesList`; `OrderedList::Insert` does not insert a receipt twice. -/
def storeChangedVariablesList (history : RemoteSystemVariableHistory)
    (changedVariables : ChangedVariablesList) (sendReceipt : UInt32) :
    RemoteSystemVariableHistory :=
  let changedVariables := { changedVariables with sendReceipt := sendReceipt }
  match OrderedList.getIndexFromKey updatedVariablesListPtrComp history.updatedVariablesHistory
    sendReceipt with
  | (_, true) => history
  | (index, false) =>
    { history with updatedVariablesHistory :=
      history.updatedVariablesHistory.take index ++
        changedVariables :: history.updatedVariablesHistory.drop index }

/-- `FreeVarsAssociatedWithReceipt` -/
def freeVarsAssociatedWithReceipt (history : RemoteSystemVariableHistory) (receiptId : UInt32) :
    RemoteSystemVariableHistory :=
  match OrderedList.getIndexFromKey updatedVariablesListPtrComp history.updatedVariablesHistory
    receiptId with
  | (index, true) =>
    { history with updatedVariablesHistory := history.updatedVariablesHistory.eraseIdx index }
  | (_, false) => history

/-- `DirtyAndFreeVarsAssociatedWithReceipt` -/
def dirtyAndFreeVarsAssociatedWithReceipt (history : RemoteSystemVariableHistory)
    (receiptId : UInt32) : Option RemoteSystemVariableHistory :=
  match OrderedList.getIndexFromKey updatedVariablesListPtrComp history.updatedVariablesHistory
    receiptId with
  | (index, true) =>
    history.updatedVariablesHistory[index]?.bind fun changedVariables =>
      (history.variableListDeltaTracker.flagDirtyFromBitArray changedVariables.bitField).map
        fun tracker =>
          { history with
            variableListDeltaTracker := tracker
            updatedVariablesHistory := history.updatedVariablesHistory.eraseIdx index }
  | (_, false) => some history

def onMessageReceipt (history : RemoteSystemVariableHistory) (receiptId : UInt32)
    (messageArrived : Bool) : Option RemoteSystemVariableHistory :=
  if messageArrived then some (history.freeVarsAssociatedWithReceipt receiptId)
  else history.dirtyAndFreeVarsAssociatedWithReceipt receiptId

end RemoteSystemVariableHistory

namespace VariableDeltaSerializer

def new : VariableDeltaSerializer := ⟨[], false, []⟩

def onPreSerializeTick (s : VariableDeltaSerializer) : VariableDeltaSerializer :=
  { s with didComparisonThisTick := false }

/-- `GetRemoteSystemHistoryListIndex` -/
def getRemoteSystemHistoryListIndex (s : VariableDeltaSerializer) (guid : RakNetGUID) :
    Option ℕ :=
  s.remoteSystemVariableHistoryList.findIdx? fun history => decide (history.guid = guid)

def setHistory (s : VariableDeltaSerializer) (index : ℕ) (history : RemoteSystemVariableHistory) :
    VariableDeltaSerializer :=
  { s with remoteSystemVariableHistoryList :=
    s.remoteSystemVariableHistoryList.set index history }

def setTracker (s : VariableDeltaSerializer) (index : ℕ) (tracker : VariableListDeltaTracker) :
    VariableDeltaSerializer :=
  { s with remoteSystemVariableHistoryList :=
    s.remoteSystemVariableHistoryList.modify index fun history =>
      { history with variableListDeltaTracker := tracker } }

/-- `OnMessageReceipt` -/
def onMessageReceipt (s : VariableDeltaSerializer) (guid : RakNetGUID) (receiptId : UInt32)
    (messageArrived : Bool) : Option VariableDeltaSerializer :=
  match s.getRemoteSystemHistoryListIndex guid with
  | none => some s
  | some index =>
    s.remoteSystemVariableHistoryList[index]?.bind fun history =>
      (history.onMessageReceipt receiptId messageArrived).map (s.setHistory index)

/-- `StartVariableHistoryWrite`: the place of the history, which is made if there is none. -/
def startVariableHistoryWrite (s : VariableDeltaSerializer) (guid : RakNetGUID) :
    ℕ × VariableDeltaSerializer :=
  let (index, list) := match s.getRemoteSystemHistoryListIndex guid with
    | none => (s.remoteSystemVariableHistoryList.length,
        s.remoteSystemVariableHistoryList ++ [RemoteSystemVariableHistory.new guid])
    | some index => (index, s.remoteSystemVariableHistoryList)
  (index, { s with remoteSystemVariableHistoryList := list.modify index fun history =>
    { history with variableListDeltaTracker := history.variableListDeltaTracker.startWrite } })

def beginUnreliableAckedSerialize (s : VariableDeltaSerializer) (context : SerializationContext)
    (guid : RakNetGUID) (bitStream : List Bool) (sendReceipt : UInt32)
    (memory : ChangedVariablesList) : VariableDeltaSerializer × SerializationContext :=
  let (index, s') := match context.variableHistoryUnique with
    | some index => (index, s)
    | none => s.startVariableHistoryWrite guid
  (s', { context with
    anyVariablesWritten := false
    guid := guid
    bitStream := bitStream
    variableHistoryUnique := some index
    variableHistory := index
    sendReceipt := sendReceipt
    changedVariables := allocChangedVariablesList memory
    newSystemSend := false
    serializationMode := .unreliableWithAckReceipt })

def beginUniqueSerialize (s : VariableDeltaSerializer) (context : SerializationContext)
    (guid : RakNetGUID) (bitStream : List Bool) : VariableDeltaSerializer × SerializationContext :=
  let (index, s') := match context.variableHistoryUnique with
    | some index => (index, s)
    | none => s.startVariableHistoryWrite guid
  (s', { context with
    anyVariablesWritten := false
    guid := guid
    bitStream := bitStream
    variableHistoryUnique := some index
    variableHistory := index
    newSystemSend := false
    serializationMode := .reliable })

def beginIdenticalSerialize (s : VariableDeltaSerializer) (context : SerializationContext)
    (isFirstSendToRemoteSystem : Bool) (bitStream : List Bool) :
    VariableDeltaSerializer × SerializationContext :=
  let (index, s') := match context.variableHistoryIdentical with
    | some index => (index, s)
    | none => s.startVariableHistoryWrite .unassigned
  (s', { context with
    anyVariablesWritten := false
    guid := .unassigned
    bitStream := bitStream
    serializationMode := .reliable
    variableHistoryIdentical := some index
    variableHistory := index
    newSystemSend := isFirstSendToRemoteSystem })

/-- `SerializeVariable` where `WriteVarToBitstream` compares with the last value. -/
def serializeChanged (s : VariableDeltaSerializer) (context : SerializationContext)
    (tracker : VariableListDeltaTracker) (varData : Serialization) :
    Option (VariableDeltaSerializer × SerializationContext) :=
  (tracker.writeVarToBitstream varData context.bitStream).map
    fun (wasDifferent, bitStream, tracker) =>
      (s.setTracker context.variableHistory tracker,
        { context with
          bitStream := bitStream
          anyVariablesWritten := context.anyVariablesWritten || wasDifferent })

/-- `SerializeVariable` where a receipt will tell whether the update arrived. -/
def serializeAcked (s : VariableDeltaSerializer) (context : SerializationContext)
    (tracker : VariableListDeltaTracker) (varData : Serialization) :
    Option (VariableDeltaSerializer × SerializationContext) :=
  (tracker.writeVarToBitArray varData context.bitStream context.changedVariables.bitField
    context.changedVariables.bitWriteIndex).map
    fun (wasDifferent, bitStream, bitField, tracker) =>
      (s.setTracker context.variableHistory tracker,
        { context with
          bitStream := bitStream
          changedVariables := { context.changedVariables with
            bitField := bitField
            bitWriteIndex := context.changedVariables.bitWriteIndex + 1 }
          anyVariablesWritten := context.anyVariablesWritten || wasDifferent })

def serializeVariable (s : VariableDeltaSerializer) (context : SerializationContext)
    (varData : Serialization) : Option (VariableDeltaSerializer × SerializationContext) :=
  s.remoteSystemVariableHistoryList[context.variableHistory]?.bind fun history =>
    let tracker := history.variableListDeltaTracker
    if context.newSystemSend then
      if tracker.isPastEndOfList = false then
        some (s, { context with
          bitStream := VariableListDeltaTracker.writeFlagged context.bitStream true varData
          anyVariablesWritten := true })
      else
        (s.serializeChanged context tracker varData).map fun (s', context') =>
          (s', { context' with anyVariablesWritten := true })
    else if context.serializationMode = .unreliableWithAckReceipt then
      s.serializeAcked context tracker varData
    else if context.variableHistoryIdentical.isSome && s.didComparisonThisTick then
      -- `EndSerialize` writes what was compared for another system.
      some (s, context)
    else s.serializeChanged context tracker varData

/-- One `SerializeVariable` for each variable. -/
def serializeVariables :
    VariableDeltaSerializer → SerializationContext → List Serialization →
      Option (VariableDeltaSerializer × SerializationContext)
  | s, context, [] => some (s, context)
  | s, context, varData :: rest =>
    (s.serializeVariable context varData).bind fun (s', context') =>
      serializeVariables s' context' rest

/-- `EndSerialize`, with the bit stream as it leaves it. -/
def endSerialize (s : VariableDeltaSerializer) (context : SerializationContext) :
    VariableDeltaSerializer × List Bool :=
  if context.serializationMode = .unreliableWithAckReceipt then
    if context.anyVariablesWritten = false then (s, [])
    else
      ({ s with remoteSystemVariableHistoryList :=
        s.remoteSystemVariableHistoryList.modify context.variableHistory fun history =>
          history.storeChangedVariablesList context.changedVariables context.sendReceipt },
        context.bitStream)
  else if context.variableHistoryIdentical.isSome then
    if s.didComparisonThisTick = false then
      if context.anyVariablesWritten = false then
        ({ s with didComparisonThisTick := true, identicalSerializationBs := [] }, [])
      else
        ({ s with didComparisonThisTick := true, identicalSerializationBs := context.bitStream },
          context.bitStream)
    else (s, context.bitStream ++ s.identicalSerializationBs)
  else if context.anyVariablesWritten = false then (s, [])
  else (s, context.bitStream)

end VariableDeltaSerializer

end SLikeNet
