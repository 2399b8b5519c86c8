import SLikeNet.Library.BitCursor

/-! The reads of `BitStream` on the bytes of a packet. Numbers are read in network order. -/

namespace SLikeNet

open BitCursor

namespace PacketReads

/-- `BitStream(packet->data, packet->length, false)`; the number of bits has 32 bits. -/
def openPacket (packet : List UInt8) : Cursor := ⟨packet, packet.length * 8 % 2 ^ 32, 0⟩

def numberOfUnreadBits (c : Cursor) : ℕ := c.numberOfBits - c.readOffset

def ignoreBits (n : ℕ) : Access Unit := fun c => some ((), { c with readOffset := c.readOffset + n })

/-- A read of so many bits behind a look at `GetNumberOfUnreadBits`. -/
def guarded {α : Type} (n : ℕ) (tooShort : α) (value : List Bool → α) : Access α := do
  let c ← get
  if numberOfUnreadBits c < n then pure tooShort else value <$> fetch n

def readBits (n : ℕ) : Access (Option (List Bool)) :=
  if n = 0 then pure none else guarded n none some

/-- `Read(bool&)` -/
def readBool : Access (Option Bool) := guarded 1 none fun bits => some (bits.headD false)

def readBit : Access Bool := guarded 1 false fun bits => bits.headD false

/-- `Read` of an unsigned number of so many bytes. -/
def readNumber (bytes : ℕ) : Access (Option ℕ) :=
  (fun bits => bits.map BitStream.ofBits) <$> readBits (bytes * 8)

/-- `ReadCompressed` from `currentByte` down: the bits of the bytes up to it. -/
def readCompressedFrom : ℕ → Access (Option (List Bool))
  | 0 => do
    match ← readBool with
    | none => pure none
    | some true =>
      (fun bits => bits.map fun bits => List.replicate 4 false ++ bits) <$> readBits 4
    | some false => readBits 8
  | currentByte + 1 => do
    match ← readBool with
    | none => pure none
    | some true =>
      (fun bits => bits.map fun bits => bits ++ List.replicate 8 false) <$>
        readCompressedFrom currentByte
    | some false => readBits ((currentByte + 2) * 8)

def readCompressed (bytes : ℕ) : Access (Option ℕ) :=
  (fun bits => bits.map BitStream.ofBits) <$> readCompressedFrom (bytes - 1)

/-- `AlignReadToByteBoundary` -/
def alignReadToByteBoundary : Access Unit := fun c =>
  some ((), { c with readOffset := c.readOffset + BitStream.padding c.readOffset })

/-! ### Huffman codes -/

inductive HuffmanEncodingTreeNode
  | leaf (value : UInt8)
  | node (left right : HuffmanEncodingTreeNode)

/-- The loop of `DecodeArray`. The children of a leaf are null pointers. -/
def decodeArrayFrom (root : HuffmanEncodingTreeNode) :
    ℕ → HuffmanEncodingTreeNode → Access (List UInt8)
  | 0, _ => pure []
  | sizeInBits + 1, currentNode => do
    let bit ← readBit
    match currentNode with
    | .leaf _ => failure
    | .node left right =>
      match if bit then right else left with
      | .leaf value => (fun output => value :: output) <$> decodeArrayFrom root sizeInBits root
      | currentNode => decodeArrayFrom root sizeInBits currentNode

/-- `StringCompressor::DecodeString`: the string that the output holds. -/
def decodeString (root : HuffmanEncodingTreeNode) (maxCharsToWrite : ℕ) :
    Access (Option (List UInt8)) := do
  match ← readCompressed 4 with
  | none => pure none
  | some stringBitLength =>
    let c ← get
    if numberOfUnreadBits c < stringBitLength then pure none
    else
      (fun output => some (output.take (maxCharsToWrite - 1))) <$>
        decodeArrayFrom root stringBitLength root

/-! ### Reads stay inside the packet -/

section Ahead

variable {c : Cursor} {bits rest : List Bool} {n : ℕ}

theorem guarded_ahead {α : Type} (tooShort : α) (value : List Bool → α) (h : c.Ahead bits)
    (hn : bits.length = n) : guarded n tooShort value c = some (value bits, c.advance n) := by
  have hwithin := h.within
  have hrun : guarded n tooShort value c =
      if numberOfUnreadBits c < n then some (tooShort, c)
      else (fetch n c).bind fun p => some (value p.1, p.2) := by
    show (if numberOfUnreadBits c < n then pure tooShort else value <$> fetch n : Access α) c = _
    split <;> rfl
  have henough : ¬ numberOfUnreadBits c < n := by
    unfold numberOfUnreadBits
    omega
  rw [hrun, if_neg henough, fetch_ahead h hn]
  rfl

theorem readBits_ahead (h : c.Ahead bits) (hn : bits.length = n) (hpos : n ≠ 0) :
    readBits n c = some (some bits, c.advance n) := by
  rw [readBits, if_neg hpos]
  exact guarded_ahead none some h hn

theorem readBool_ahead {b : Bool} (h : c.Ahead (b :: rest)) :
    readBool c = some (some b, c.advance 1) :=
  guarded_ahead none (fun bits => some (bits.headD false)) (@Cursor.Ahead.left c [b] rest h) rfl

theorem readBit_ahead {b : Bool} (h : c.Ahead (b :: rest)) :
    readBit c = some (b, c.advance 1) :=
  guarded_ahead false (fun bits => bits.headD false) (@Cursor.Ahead.left c [b] rest h) rfl

theorem readNumber_ahead {bytes value : ℕ} (hpos : 0 < bytes) (hvalue : value < 256 ^ bytes)
    (h : c.Ahead (BitStream.toBits (bytes * 8) value)) :
    readNumber bytes c = some (some value, c.advance (bytes * 8)) := by
  have hlt : value < 2 ^ (bytes * 8) := by
    rw [Nat.mul_comm, Nat.pow_mul]
    exact hvalue
  refine (map_of_run _ (readBits_ahead h (BitStream.length_toBits _ _) (by omega))).trans ?_
  rw [Option.map_some, BitStream.ofBits_toBits_of_lt hlt]

end Ahead

end PacketReads

end SLikeNet
