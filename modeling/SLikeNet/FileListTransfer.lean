import SLikeNet.PacketReads
import SLikeNet.ReliabilityLayer
import SLikeNet.RemoteSystem

/-! `FileListTransfer::OnReferencePush` on packets that arrived whole: chunks of files, copied
into the block that is kept for their file. -/

namespace SLikeNet

open BitCursor PacketReads

/-- `ID_FILE_LIST_REFERENCE_PUSH` -/
def fileListReferencePush : UInt8 := 75

def maxRetrievableFilesize : ℕ := 0xFFFFFFFF

structure FileListNodeContext where
  op : ℕ
  flncExtraData1 : ℕ
  flncExtraData2 : ℕ
  flncExtraData3 : ℕ

/-- A pointer to bytes is the bytes from it on. -/
structure OnFileStruct where
  fileIndex : ℕ
  fileName : List UInt8
  fileData : Option (List UInt8)
  byteLengthOfThisFile : ℕ
  bytesDownloadedForThisFile : ℕ
  setID : ℕ
  numberOfFilesInThisSet : ℕ
  byteLengthOfThisSet : ℕ
  bytesDownloadedForThisSet : ℕ
  context : FileListNodeContext
  senderSystemAddress : SystemAddress
  senderGuid : RakNetGUID

structure FileProgressStruct where
  onFileStruct : OnFileStruct
  partCount : ℕ
  partTotal : ℕ
  dataChunkLength : ℕ
  firstDataChunk : Option (List UInt8)
  iriDataChunk : List UInt8
  iriWriteOffset : ℕ
  senderSystemAddress : SystemAddress
  senderGuid : RakNetGUID

structure DownloadCompleteStruct where
  setID : ℕ
  numberOfFilesInThisSet : ℕ
  byteLengthOfThisSet : ℕ
  senderSystemAddress : SystemAddress
  senderGuid : RakNetGUID

/-- What a push makes the receiver do besides changing its state. -/
inductive PushEvent
  | sendPushAck (setID : ℕ) (systemAddress : SystemAddress)
  | onFileProgress (fps : FileProgressStruct)
  | onFile (onFileStruct : OnFileStruct)
  | onDownloadComplete (dcs : DownloadCompleteStruct)

/-- In `pushedFiles` a file without an entry is `none`, and a null block is `some none`. -/
structure FileListReceiver where
  allowedSender : SystemAddress
  setID : ℕ
  setCount : ℕ
  setTotalFinalLength : ℕ
  setTotalDownloadedLength : ℕ
  filesReceived : ℤ
  pushedFiles : ℕ → Option (Option (List UInt8))

structure FileListTransfer where
  fileListReceivers : ℕ → Option FileListReceiver

/-- A packet, what its `OnFileStruct` holds before it is read, and what the allocation and the
callbacks answer. -/
structure Push where
  body : List UInt8
  systemAddress : SystemAddress
  guid : RakNetGUID
  context : FileListNodeContext
  setID : ℕ
  fileIndex : ℕ
  byteLengthOfThisFile : ℕ
  mallocSucceeds : Bool
  memory : ℕ → UInt8
  allocateIrIDataChunkAutomatically : Bool
  onFile : Bool
  onDownloadComplete : Bool

def Push.data (push : Push) : List UInt8 := fileListReferencePush :: push.body

structure PushedChunk where
  fileName : List UInt8
  fileIndex : ℕ
  byteLengthOfThisFile : ℕ
  offset : ℕ
  chunkLength : ℕ
  lastChunk : Bool

/-- The chunk lies inside a file of the length that comes with it. -/
def PushedChunk.Within (chunk : PushedChunk) : Prop :=
  chunk.chunkLength ≤ chunk.byteLengthOfThisFile ∧
    chunk.offset ≤ chunk.byteLengthOfThisFile - chunk.chunkLength

instance (chunk : PushedChunk) : Decidable chunk.Within :=
  inferInstanceAs (Decidable (_ ∧ _))

/-- `operator>>` for `FileListNodeContext` -/
def FileListNodeContext.read (context : FileListNodeContext) : Access FileListNodeContext := do
  let op ← readNumber 1
  let flncExtraData1 ← readNumber 4
  let flncExtraData2 ← readNumber 4
  let flncExtraData3 ← readNumber 4
  pure ⟨op.getD context.op, flncExtraData1.getD context.flncExtraData1,
    flncExtraData2.getD context.flncExtraData2, flncExtraData3.getD context.flncExtraData3⟩

/-- From the file name on. The file's index and length keep what they held where their reads
fail. -/
def readChunk (root : HuffmanEncodingTreeNode) (push : Push) : Access (Option PushedChunk) := do
  match ← decodeString root 512 with
  | none => pure none
  | some fileName =>
    let fileIndex ← readCompressed 4
    let byteLengthOfThisFile ← readCompressed 4
    match ← readCompressed 4 with
    | none => pure none
    | some offset =>
      match ← readCompressed 4 with
      | none => pure none
      | some chunkLength =>
        let lastChunk ← readBool
        pure (some ⟨fileName, fileIndex.getD push.fileIndex,
          byteLengthOfThisFile.getD push.byteLengthOfThisFile, offset, chunkLength,
          lastChunk.getD false⟩)

/-- The receiver of a set that expects files from this sender, and the chunk. -/
def readForReceiver (root : HuffmanEncodingTreeNode) (transfer : FileListTransfer) (push : Push)
    (setID : ℕ) : Access (Option (FileListReceiver × PushedChunk)) :=
  match transfer.fileListReceivers setID with
  | none => pure none
  | some fileListReceiver =>
    if fileListReceiver.allowedSender ≠ push.systemAddress then pure none
    else (fun chunk => chunk.map fun chunk => (fileListReceiver, chunk)) <$> readChunk root push

/-- What a push reads before it compares the chunk with the file. -/
def readPush (root : HuffmanEncodingTreeNode) (transfer : FileListTransfer) (push : Push) :
    Access (FileListNodeContext × ℕ × Option (FileListReceiver × PushedChunk)) := do
  ignoreBits 8
  let context ← push.context.read
  let setID ← readNumber 2
  let setID := setID.getD push.setID
  let accepted ← readForReceiver root transfer push setID
  pure (context, setID, accepted)

namespace FileListReceiver

/-- The block of a file that has an entry, and a new one for a file that has none. -/
def memoryBlock (fileListReceiver : FileListReceiver) (push : Push) (chunk : PushedChunk) :
    Option (List UInt8) :=
  match fileListReceiver.pushedFiles chunk.fileIndex with
  | some block => block
  | none =>
    if chunk.byteLengthOfThisFile ≤ maxRetrievableFilesize then
      if push.mallocSucceeds then some ((List.range chunk.byteLengthOfThisFile).map push.memory)
      else none
    else none

def setBlock (fileListReceiver : FileListReceiver) (fileIndex : ℕ) (block : Option (List UInt8)) :
    FileListReceiver :=
  { fileListReceiver with
    pushedFiles := fun i => if i = fileIndex then some block else fileListReceiver.pushedFiles i }

def deleteBlock (fileListReceiver : FileListReceiver) (fileIndex : ℕ) : FileListReceiver :=
  { fileListReceiver with
    pushedFiles := fun i => if i = fileIndex then none else fileListReceiver.pushedFiles i }

end FileListReceiver

namespace FileListTransfer

def setReceiver (transfer : FileListTransfer) (setID : ℕ)
    (fileListReceiver : Option FileListReceiver) : FileListTransfer :=
  ⟨fun i => if i = setID then fileListReceiver else transfer.fileListReceivers i⟩

/-- `(int) setCount` -/
def toInt (n : ℕ) : ℤ := if n < 2 ^ 31 then n else (n : ℤ) - 2 ^ 32

/-- Hands out the chunk, the file if this was its last chunk, and the end of the set if this was
its last file. -/
def finishPush (transfer : FileListTransfer) (push : Push) (setID : ℕ)
    (fileListReceiver : FileListReceiver) (chunk : PushedChunk) (fps : FileProgressStruct) :
    FileListTransfer × List PushEvent :=
  if chunk.lastChunk then
    let fps :=
      if fps.partCount = 0 then { fps with firstDataChunk := some fps.iriDataChunk } else fps
    let onFileStruct :=
      if fps.partTotal = 1 then { fps.onFileStruct with fileData := some fps.iriDataChunk }
      else fps.onFileStruct
    let fps := { fps with onFileStruct := onFileStruct }
    let fileListReceiver := fileListReceiver.deleteBlock chunk.fileIndex
    let fileListReceiver :=
      { fileListReceiver with filesReceived := fileListReceiver.filesReceived + 1 }
    if toInt fileListReceiver.setCount = fileListReceiver.filesReceived then
      let dcs : DownloadCompleteStruct :=
        ⟨fileListReceiver.setID, fileListReceiver.setCount, fileListReceiver.setTotalFinalLength,
          push.systemAddress, push.guid⟩
      (transfer.setReceiver setID (if push.onDownloadComplete then some fileListReceiver else none),
        [.onFileProgress fps, .onFile onFileStruct, .onDownloadComplete dcs])
    else
      (transfer.setReceiver setID (some fileListReceiver),
        [.onFileProgress fps, .onFile onFileStruct])
  else
    let fileListReceiver :=
      if push.allocateIrIDataChunkAutomatically then fileListReceiver
      else fileListReceiver.setBlock chunk.fileIndex none
    (transfer.setReceiver setID (some fileListReceiver), [.onFileProgress fps])

def totalNotifications (chunk : PushedChunk) : ℕ :=
  if chunk.chunkLength = 0 ∨ chunk.chunkLength = chunk.byteLengthOfThisFile then 1
  else (chunk.byteLengthOfThisFile / chunk.chunkLength + 1) % 2 ^ 32

def currentNotificationIndex (chunk : PushedChunk) : ℕ :=
  if chunk.chunkLength = 0 then 0 else chunk.offset / chunk.chunkLength

/-- The chunk is copied into the block where there is one, and otherwise only shown. -/
def copyChunk (block : Option (List UInt8)) (chunk : PushedChunk) (c : Cursor) :
    Option (Option (List UInt8) × List UInt8) := do
  let bytes ← slice c.memory (bitsToBytes c.readOffset) chunk.chunkLength
  match block with
  | some block =>
    let block ← overwrite block chunk.offset bytes
    some (some block, block.drop chunk.offset)
  | none => some (none, c.memory.drop (bitsToBytes c.readOffset))

/-- From the comparison of the chunk with the file on. -/
def storeChunk (transfer : FileListTransfer) (push : Push) (context : FileListNodeContext)
    (setID : ℕ) (fileListReceiver : FileListReceiver) (chunk : PushedChunk) (c : Cursor) :
    Option (FileListTransfer × List PushEvent) :=
  if chunk.Within then
    let block := fileListReceiver.memoryBlock push chunk
    let fileListReceiver := fileListReceiver.setBlock chunk.fileIndex block
    let c := { c with readOffset := c.readOffset + BitStream.padding c.readOffset }
    if chunk.chunkLength > bitsToBytes (numberOfUnreadBits c) then
      some (transfer.setReceiver setID (some fileListReceiver), [])
    else do
      let (block, iriDataChunk) ← copyChunk block chunk c
      let setTotalDownloadedLength :=
        (fileListReceiver.setTotalDownloadedLength + chunk.chunkLength) % 2 ^ 32
      let onFileStruct : OnFileStruct :=
        { fileIndex := chunk.fileIndex
          fileName := chunk.fileName
          fileData := block
          byteLengthOfThisFile := chunk.byteLengthOfThisFile
          bytesDownloadedForThisFile := (chunk.offset + chunk.chunkLength) % 2 ^ 32
          setID := setID
          numberOfFilesInThisSet := fileListReceiver.setCount
          byteLengthOfThisSet := fileListReceiver.setTotalFinalLength
          bytesDownloadedForThisSet := setTotalDownloadedLength
          context := context
          senderSystemAddress := push.systemAddress
          senderGuid := push.guid }
      let fps : FileProgressStruct :=
        { onFileStruct := onFileStruct
          partCount := currentNotificationIndex chunk
          partTotal := totalNotifications chunk
          dataChunkLength := chunk.chunkLength
          firstDataChunk := block
          iriDataChunk := iriDataChunk
          iriWriteOffset := chunk.offset
          senderSystemAddress := push.systemAddress
          senderGuid := push.guid }
      let fileListReceiver := fileListReceiver.setBlock chunk.fileIndex block
      some (transfer.finishPush push setID
        { fileListReceiver with setTotalDownloadedLength := setTotalDownloadedLength } chunk fps)
  else some (transfer, [])

/-- There is no result where a read leaves the packet or a copy leaves its block. -/
def onReferencePush (root : HuffmanEncodingTreeNode) (transfer : FileListTransfer) (push : Push) :
    Option (FileListTransfer × List PushEvent) := do
  let ((context, setID, accepted), c) ← readPush root transfer push (openPacket push.data)
  match accepted with
  | none => some (transfer, [.sendPushAck setID push.systemAddress])
  | some (fileListReceiver, chunk) =>
    let (transfer, events) ← transfer.storeChunk push context setID fileListReceiver chunk c
    some (transfer, .sendPushAck setID push.systemAddress :: events)

end FileListTransfer

end SLikeNet
