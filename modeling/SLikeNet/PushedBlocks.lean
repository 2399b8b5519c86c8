import SLikeNet.FileListTransfer
import SLikeNet.Library.Transition

/-! A push is read inside its packet, and copied inside the block of its file unless an earlier
push had that block made too small for it. -/

namespace SLikeNet

open BitCursor PacketReads

variable {left right : HuffmanEncodingTreeNode} {transfer : FileListTransfer} {push : Push}

/-! ### Reading a push -/

/-- The cursor at the payload of a push. -/
def payload (c : Cursor) : Cursor :=
  { c with readOffset := c.readOffset + BitStream.padding c.readOffset }

namespace FileListTransfer

theorem onReferencePush_refused {root : HuffmanEncodingTreeNode} {context : FileListNodeContext}
    {setID : ℕ} {c : Cursor}
    (hread : readPush root transfer push (openPacket push.data) =
      some ((context, setID, none), c)) :
    transfer.onReferencePush root push =
      some (transfer, [.sendPushAck setID push.systemAddress]) := by
  rw [onReferencePush, hread]
  rfl

theorem onReferencePush_accepted {root : HuffmanEncodingTreeNode} {context : FileListNodeContext}
    {setID : ℕ} {fileListReceiver : FileListReceiver} {chunk : PushedChunk} {c : Cursor}
    (hread : readPush root transfer push (openPacket push.data) =
      some ((context, setID, some (fileListReceiver, chunk)), c)) :
    transfer.onReferencePush root push =
      (transfer.storeChunk push context setID fileListReceiver chunk c).map fun result =>
        (result.1, .sendPushAck setID push.systemAddress :: result.2) := by
  rw [onReferencePush, hread]
  show ((transfer.storeChunk push context setID fileListReceiver chunk c).bind fun result =>
    some (result.1, .sendPushAck setID push.systemAddress :: result.2)) = _
  cases transfer.storeChunk push context setID fileListReceiver chunk c with
  | none => rfl
  | some result => rfl

/-- A set of one file from the system `1.2.3.4|60000`. -/
def oneFile : FileListTransfer :=
  ⟨fun setID =>
    if setID = 0 then some ⟨⟨0x01020304, 60000⟩, 0, 1, 1, 0, 0, fun _ => none⟩ else none⟩

/-- A number as `WriteCompressed` writes it, where it is zero or its lowest byte is not. -/
def compressedBits (n : ℕ) : List Bool :=
  if n = 0 then [true, true, true, true, false, false, false, false]
  else false :: BitStream.toBits 32 n

def bytesOf (bits : List Bool) : List UInt8 :=
  (List.range (bits.length / 8)).map fun i =>
    UInt8.ofNat (BitStream.ofBits ((bits.drop (8 * i)).take 8))

/-- A push of the last byte of the file at index `0`, which has no name, for a file of
`byteLengthOfThisFile` bytes. The chunk is not said to be the last. -/
def lastByte (byteLengthOfThisFile : ℕ) : Push where
  body := List.replicate 15 0 ++
    bytesOf (BitStream.align (compressedBits 0 ++ compressedBits 0 ++
      compressedBits byteLengthOfThisFile ++ compressedBits (byteLengthOfThisFile - 1) ++
      compressedBits 1 ++ [false])) ++ [65]
  systemAddress := ⟨0x01020304, 60000⟩
  guid := ⟨1⟩
  context := ⟨0, 0, 0, 0⟩
  setID := 0
  fileIndex := 0
  byteLengthOfThisFile := 0
  mallocSucceeds := true
  memory := fun _ => 0
  allocateIrIDataChunkAutomatically := true
  onFile := true
  onDownloadComplete := false

end FileListTransfer

end SLikeNet
