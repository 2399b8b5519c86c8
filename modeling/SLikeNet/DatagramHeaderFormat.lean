import SLikeNet.Uint24
import SLikeNet.Library.BitStream

/-! `uint24_t` on a bit stream, and the header in front of every datagram. -/

namespace SLikeNet

open BitStream

namespace Uint24

/-- The three bytes that `BitStream::Write` takes from `val`, the lowest first. -/
def bytes (n : Uint24) : List Bool :=
  toBits 8 n.val ++ toBits 8 (n.val / 2 ^ 8) ++ toBits 8 (n.val / 2 ^ 16)

def write (stream : List Bool) (n : Uint24) : List Bool := align stream ++ n.bytes

def ofBytes (bits : List Bool) : Uint24 :=
  .ofNat (ofBits (bits.take 8) + ofBits ((bits.drop 8).take 8) * 2 ^ 8 +
    ofBits (bits.drop 16) * 2 ^ 16)

def read (r : Reader) : Option Uint24 × Reader :=
  ((r.align.read 24).1.map ofBytes, (r.align.read 24).2)

@[simp] theorem length_bytes (n : Uint24) : n.bytes.length = 24 := by
  simp only [bytes, List.length_append, length_toBits]

theorem ofBytes_bytes (n : Uint24) : ofBytes n.bytes = n := by
  have hlt := n.isLt
  have h0 : n.bytes.take 8 = toBits 8 n.val := by
    rw [bytes, List.append_assoc, List.take_left' (length_toBits 8 _)]
  have h1 : (n.bytes.drop 8).take 8 = toBits 8 (n.val / 2 ^ 8) := by
    rw [bytes, List.append_assoc, List.drop_left' (length_toBits 8 _),
      List.take_left' (length_toBits 8 _)]
  have h2 : n.bytes.drop 16 = toBits 8 (n.val / 2 ^ 16) := by
    apply List.drop_left'
    rw [List.length_append, length_toBits, length_toBits]
  apply ext
  rw [ofBytes, h0, h1, h2, ofBits_toBits, ofBits_toBits, ofBits_toBits, val_ofNat]
  omega

theorem write_of_aligned {stream : List Bool} (h : stream.length % 8 = 0) (n : Uint24) :
    write stream n = stream ++ n.bytes := by
  rw [write, align_of_aligned h]

theorem read_bytes {offset : ℕ} (h : offset % 8 = 0) (n : Uint24) (rest : List Bool) :
    read ⟨n.bytes ++ rest, offset⟩ = (some n, ⟨rest, offset + 24⟩) := by
  rw [read, Reader.align_of_aligned h, Reader.read_append (length_bytes n)]
  show (some (ofBytes n.bytes), _) = _
  rw [ofBytes_bytes]

end Uint24

/-- `DatagramHeaderFormat`, by the kind of datagram that it starts. -/
inductive DatagramHeaderFormat
  | ack
  | nak
  | data (isPacketPair isContinuousSend needsBAndAs : Bool) (datagramNumber : Uint24)
deriving DecidableEq

namespace DatagramHeaderFormat

/-- `CCRakNetSlidingWindow` sends neither B nor AS. -/
def serialize : DatagramHeaderFormat → List Bool
  | ack => align [true, true, false]
  | nak => [true, false, true]
  | data isPacketPair isContinuousSend needsBAndAs datagramNumber =>
    datagramNumber.write
      (align [true, false, false, isPacketPair, isContinuousSend, needsBAndAs])

/-- `Deserialize` where nothing is cut off, and `none` otherwise. -/
def deserialize (r : Reader) : Option DatagramHeaderFormat × Reader :=
  match r.read 2 with
  | (some [true, true], r) =>
    match r.read 1 with
    | (some [hasBAndAS], r) => (some ack, if hasBAndAS then (r.align.read 32).2 else r.align)
    | (_, r) => (none, r)
  | (some [true, false], r) =>
    match r.read 1 with
    | (some [true], r) => (some nak, r)
    | (some [false], r) =>
      match r.read 3 with
      | (some [isPacketPair, isContinuousSend, needsBAndAs], r) =>
        match Uint24.read r.align with
        | (some n, r) => (some (data isPacketPair isContinuousSend needsBAndAs n), r)
        | (none, r) => (none, r)
      | (_, r) => (none, r)
    | (_, r) => (none, r)
  | (_, r) => (none, r)

theorem length_serialize_data (a b c : Bool) (n : Uint24) :
    (data a b c n).serialize.length = 32 := by
  have halign : (align [true, false, false, a, b, c]).length = 8 := rfl
  rw [serialize, Uint24.write_of_aligned (by rw [halign]), List.length_append, halign,
    Uint24.length_bytes]

theorem serialize_data_aligned (a b c : Bool) (n : Uint24) :
    (data a b c n).serialize.length % 8 = 0 := by
  rw [length_serialize_data]

theorem deserialize_data (a b c : Bool) (n : Uint24) (rest : List Bool) :
    deserialize (.ofStream ((data a b c n).serialize ++ rest)) =
      (some (data a b c n), ⟨rest, 32⟩) := by
  have hbyte : (align [true, false, false, a, b, c]).length = 8 := rfl
  have hstream : (data a b c n).serialize ++ rest = [true, false] ++ ([false] ++ ([a, b, c] ++
      (List.replicate 2 false ++ (n.bytes ++ rest)))) := by
    rw [serialize, Uint24.write_of_aligned (by rw [hbyte])]
    rfl
  have h2 : [true, false].length = 2 := rfl
  have h1 : [false].length = 1 := rfl
  have h3 : [a, b, c].length = 3 := rfl
  have halign := Reader.align_padding (n.bytes ++ rest) 6
  rw [show padding 6 = 2 from rfl] at halign
  rw [hstream, Reader.ofStream, deserialize, Reader.read_append h2]
  dsimp only
  rw [Reader.read_append h1]
  dsimp only
  rw [Reader.read_append h3]
  dsimp only
  rw [halign, Uint24.read_bytes rfl]

end DatagramHeaderFormat

end SLikeNet
