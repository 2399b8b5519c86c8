import SLikeNet.Library.BitMemory

/-! The last values written to a remote system, as `VariableListDeltaTracker` keeps them. What
writes outside the memory of an object has no result. -/

namespace SLikeNet

/-- What `BitStream::Write` appends for a variable, where the stream already has so many bits. -/
structure Serialization where
  write : ℕ → List Bool

namespace Serialization

/-- The bytes of a stream that holds only the variable. -/
def data (varData : Serialization) : List Bool := BitStream.align (varData.write 0)

end Serialization

/-- `lastData` points to a block of exactly `byteLength` bytes. -/
structure VariableLastValueNode where
  lastData : List Bool
  isDirty : Bool
deriving DecidableEq

namespace VariableLastValueNode

def byteLength (node : VariableLastValueNode) : ℕ := node.lastData.length / 8

/-- The variable does not have the size that it had when it was last written. -/
def sizeDiffers (node : VariableLastValueNode) (varData : Serialization) : Bool :=
  decide (varData.data.length / 8 ≠ node.byteLength)

end VariableLastValueNode

/-- `ChangedVariablesList::bitField` -/
abbrev bitFieldSize : ℕ := 56

structure VariableListDeltaTracker where
  variableList : List VariableLastValueNode
  /-- The slots of the array behind `variableList`. -/
  allocationSize : ℕ
  nextWriteIndex : ℕ
deriving DecidableEq

namespace VariableListDeltaTracker

def new : VariableListDeltaTracker := ⟨[], 0, 0⟩

def startWrite (t : VariableListDeltaTracker) : VariableListDeltaTracker :=
  { t with nextWriteIndex := 0 }

def isPastEndOfList (t : VariableListDeltaTracker) : Bool :=
  decide (t.variableList.length ≤ t.nextWriteIndex)

/-- `List::Push` doubles the array when it is full. -/
def push (t : VariableListDeltaTracker) (node : VariableLastValueNode) :
    VariableListDeltaTracker where
  variableList := t.variableList ++ [node]
  allocationSize :=
    if t.variableList.length = t.allocationSize then
      if t.allocationSize = 0 then 16 else t.allocationSize * 2
    else t.allocationSize
  nextWriteIndex := t.nextWriteIndex

/-- `variableList[index].isDirty=false`, where `operator[]` only checks the index in a debug
build: a slot behind the last element holds nothing yet. -/
def clearDirty (t : VariableListDeltaTracker) (index : ℕ) : Option VariableListDeltaTracker :=
  if index < t.variableList.length then
    some { t with variableList :=
      t.variableList.modify index fun node => { node with isDirty := false } }
  else if index < t.allocationSize then some t
  else none

def writeVar (t : VariableListDeltaTracker) (varData : Serialization) :
    Option (Bool × VariableListDeltaTracker) :=
  match t.variableList[t.nextWriteIndex]? with
  | none =>
    some (true, { t.push ⟨varData.data, false⟩ with nextWriteIndex := t.nextWriteIndex + 1 })
  | some node =>
    if node.sizeDiffers varData then
      let t' := { t with
        variableList := t.variableList.set t.nextWriteIndex { node with lastData := varData.data }
        nextWriteIndex := t.nextWriteIndex + 1 }
      -- The index has already moved on to the next variable.
      (t'.clearDirty t'.nextWriteIndex).map fun t' => (true, t')
    else if node.isDirty = false ∧ varData.data = node.lastData then
      some (false, { t with nextWriteIndex := t.nextWriteIndex + 1 })
    else
      some (true, { t with
        variableList := t.variableList.set t.nextWriteIndex ⟨varData.data, false⟩
        nextWriteIndex := t.nextWriteIndex + 1 })

/-- A flag, and the variable behind it if the flag is set. -/
def writeFlagged (bitStream : List Bool) (flag : Bool) (varData : Serialization) : List Bool :=
  if flag then (bitStream ++ [true]) ++ varData.write (bitStream ++ [true]).length
  else bitStream ++ [false]

def writeVarToBitstream (t : VariableListDeltaTracker) (varData : Serialization)
    (bitStream : List Bool) : Option (Bool × List Bool × VariableListDeltaTracker) :=
  (t.writeVar varData).map fun (wasDifferent, t') =>
    (wasDifferent, writeFlagged bitStream wasDifferent varData, t')

/-- How the second `WriteVarToBitstream` puts its result into the array. -/
def recordBit (bArray : ℕ → UInt8) (writeOffset : ℕ) (wasDifferent : Bool) :
    Option (ℕ → UInt8) :=
  if writeOffset / 8 < bitFieldSize then
    some fun i =>
      if i = writeOffset / 8 then
        if wasDifferent then
          if writeOffset % 8 = 0 then 0x80 else bArray i ||| 0x80 >>> UInt8.ofNat (writeOffset % 8)
        else if writeOffset % 8 = 0 then 0
        else bArray i
      else bArray i
  else none

/-- The second `WriteVarToBitstream`, which also adds the result to an array of bits. -/
def writeVarToBitArray (t : VariableListDeltaTracker) (varData : Serialization)
    (bitStream : List Bool) (bArray : ℕ → UInt8) (writeOffset : ℕ) :
    Option (Bool × List Bool × (ℕ → UInt8) × VariableListDeltaTracker) :=
  (t.writeVarToBitstream varData bitStream).bind fun (wasDifferent, bitStream', t') =>
    (recordBit bArray writeOffset wasDifferent).map fun bArray' =>
      (wasDifferent, bitStream', bArray', t')

/-- The loop of `FlagDirtyFromBitArray`, from `readOffset` on. -/
def flagDirtyFrom (bArray : ℕ → UInt8) :
    ℕ → List VariableLastValueNode → Option (List VariableLastValueNode)
  | _, [] => some []
  | readOffset, node :: nodes =>
    if readOffset / 8 < bitFieldSize then
      (flagDirtyFrom bArray (readOffset + 1) nodes).map fun nodes' =>
        (if bArray (readOffset / 8) &&& 0x80 >>> UInt8.ofNat (readOffset % 8) ≠ 0 then
          { node with isDirty := true } else node) :: nodes'
    else none

def flagDirtyFromBitArray (t : VariableListDeltaTracker) (bArray : ℕ → UInt8) :
    Option VariableListDeltaTracker :=
  (flagDirtyFrom bArray 0 t.variableList).map fun nodes => { t with variableList := nodes }

/-! ### Reading -/

/-- `ReadVarFromBitstream`: the variable as it is afterwards, and what is left of the stream. A
read that fails leaves the variable as it was. -/
def readVarFromBitstream {V : Type*} (read : ℕ → List Bool → Option (V × List Bool)) (varData : V)
    (readOffset : ℕ) (unread : List Bool) : V × ℕ × List Bool :=
  match unread with
  | [] => (varData, readOffset, [])
  | false :: rest => (varData, readOffset + 1, rest)
  | true :: rest =>
    match read (readOffset + 1) rest with
    | none => (varData, readOffset + 1, rest)
    | some (value, rest') => (value, readOffset + 1 + (rest.length - rest'.length), rest')

end VariableListDeltaTracker

end SLikeNet
