import SLikeNet.Packet
import SLikeNet.RakPeer
import SLikeNet.TypedRoundTrip

/-! Messages to the own system: `Send`, `SendList` and the receipts that they push for it. -/

namespace SLikeNet

/-- What the sends of the user thread change: the next receipt number, the packets for the user,
and the receipt numbers of the messages that go to other systems. -/
structure SendingPeer where
  sendReceiptSerial : UInt32
  packetReturnQueue : List (List UInt8)
  bufferedReceipts : List UInt32

/-- What a send names as its target. -/
inductive SendTarget
  | undefined
  | loopback
  | other
deriving DecidableEq

structure SendArguments where
  reliability : PacketReliability
  target : SendTarget
  broadcast : Bool
  forceReceiptNumber : UInt32

/-- The data is `none` for a null pointer; the blocks of a list may be empty. -/
inductive SendCall
  | sendData (data : Option (List UInt8)) (arguments : SendArguments)
  | sendBitStream (bitStream : List UInt8) (arguments : SendArguments)
  | sendList (data : List (List UInt8)) (arguments : SendArguments)

/-- `UNRELIABLE_WITH_ACK_RECEIPT` and what comes behind it. -/
def PacketReliability.hasAckReceipt : PacketReliability → Bool
  | .unreliableWithAckReceipt | .reliableWithAckReceipt | .reliableOrderedWithAckReceipt => true
  | _ => false

namespace SendingPeer

variable (isBigEndian : Bool)

def initial : SendingPeer := ⟨1, [], []⟩

/-- The five bytes of `ID_SND_RECEIPT_ACKED` with a receipt number. -/
def receiptPacket (receipt : UInt32) : List UInt8 :=
  MessageID.sndReceiptAcked :: nativeImage isBigEndian (show BitVec (IntegerWidth.bits .w32) from
    receipt.toBitVec)

def incrementNextSendReceipt (s : SendingPeer) : UInt32 × SendingPeer :=
  (s.sendReceiptSerial,
    { s with
      sendReceiptSerial :=
        if s.sendReceiptSerial + 1 = 0 then 1 else s.sendReceiptSerial + 1 })

def sendLoopback (s : SendingPeer) (data : List UInt8) : SendingPeer :=
  { s with packetReturnQueue := s.packetReturnQueue ++ [data] }

def sendBuffered (s : SendingPeer) (receipt : UInt32) : SendingPeer :=
  { s with bufferedReceipts := s.bufferedReceipts ++ [receipt] }

/-- The number of a message: the one that the user forces, or the next one. -/
def usedSendReceipt (s : SendingPeer) (arguments : SendArguments) : UInt32 × SendingPeer :=
  if arguments.forceReceiptNumber ≠ 0 then (arguments.forceReceiptNumber, s)
  else s.incrementNextSendReceipt

/-- What both `Send` do once the data is there. -/
def sendBytes (s : SendingPeer) (data : List UInt8) (arguments : SendArguments) :
    UInt32 × SendingPeer :=
  if arguments.broadcast = false ∧ arguments.target = .undefined then (0, s)
  else
    let (usedSendReceipt, s) := s.usedSendReceipt arguments
    if arguments.broadcast = false ∧ arguments.target = .loopback then
      let s := s.sendLoopback data
      if arguments.reliability.hasAckReceipt then
        -- the serial as it is now, not the number of the message
        (usedSendReceipt, s.sendLoopback (receiptPacket isBigEndian s.sendReceiptSerial))
      else (usedSendReceipt, s)
    else (usedSendReceipt, s.sendBuffered usedSendReceipt)

def sendBufferedList (s : SendingPeer) (data : List (List UInt8)) (arguments : SendArguments)
    (receipt : UInt32) : SendingPeer :=
  let dataAggregate := data.flatten
  if dataAggregate = [] then s
  else if arguments.broadcast = false ∧ arguments.target = .loopback then
    -- no receipt follows here
    s.sendLoopback dataAggregate
  else s.sendBuffered receipt

/-- A call, with what it returns; the peer is active. -/
def call (s : SendingPeer) : SendCall → UInt32 × SendingPeer
  | .sendData none _ => (0, s)
  | .sendData (some data) arguments => s.sendBytes isBigEndian data arguments
  | .sendBitStream bitStream arguments =>
    if bitStream = [] then (0, s) else s.sendBytes isBigEndian bitStream arguments
  | .sendList data arguments =>
    if data = [] then (0, s)
    else if arguments.broadcast = false ∧ arguments.target = .undefined then (0, s)
    else
      let (usedSendReceipt, s) := s.usedSendReceipt arguments
      (usedSendReceipt, s.sendBufferedList data arguments usedSendReceipt)

def run (s : SendingPeer) (calls : List SendCall) : SendingPeer :=
  calls.foldl (fun s c => (s.call isBigEndian c).2) s

end SendingPeer

namespace SendCall

def arguments : SendCall → SendArguments
  | .sendData _ arguments | .sendBitStream _ arguments | .sendList _ arguments => arguments

/-- The bytes of the message, none where the call is refused for them. -/
def message : SendCall → Option (List UInt8)
  | .sendData data _ => data
  | .sendBitStream bitStream _ => if bitStream = [] then none else some bitStream
  | .sendList data _ => if data = [] then none else some data.flatten

def isList : SendCall → Bool
  | .sendList _ _ => true
  | _ => false

def Accepted (c : SendCall) : Prop :=
  c.message ≠ none ∧ ¬ (c.arguments.broadcast = false ∧ c.arguments.target = .undefined)

instance (c : SendCall) : Decidable c.Accepted := inferInstanceAs (Decidable (_ ∧ _))

/-- A call for the own system whose receipt the user waits for. -/
def AsksLoopback (c : SendCall) : Prop :=
  c.message ≠ none ∧ c.arguments.broadcast = false ∧ c.arguments.target = .loopback ∧
    c.arguments.reliability.hasAckReceipt = true

end SendCall

namespace SendingPeer

/-- Behind the message a receipt is pushed, with the number that the call returns. -/
def Answered (isBigEndian : Bool) (s : SendingPeer) (c : SendCall) : Prop :=
  ∃ message, c.message = some message ∧
    (s.call isBigEndian c).2.packetReturnQueue =
      s.packetReturnQueue ++ [message, receiptPacket isBigEndian (s.call isBigEndian c).1]

/-- The numbers that the calls of a run draw. -/
def drawn (isBigEndian : Bool) : SendingPeer → List SendCall → List UInt32
  | _, [] => []
  | s, c :: calls =>
    (if c.Accepted ∧ c.arguments.forceReceiptNumber = 0 then [s.sendReceiptSerial] else []) ++
      drawn isBigEndian (s.call isBigEndian c).2 calls

/-- The receipts of a run carry the numbers of their calls, and numbers are drawn again only after
all others were. -/
structure ReceiptsIdentify (isBigEndian : Bool) (calls : List SendCall) : Prop where
  answered : ∀ before c after, calls = before ++ c :: after → c.AsksLoopback →
    Answered isBigEndian (run isBigEndian initial before) c
  ne_zero : ∀ receipt ∈ drawn isBigEndian initial calls, receipt ≠ 0
  distinct : ∀ (i j : ℕ) (receipt receipt' : UInt32), i < j → j - i < 2 ^ 32 - 1 →
    (drawn isBigEndian initial calls)[i]? = some receipt →
    (drawn isBigEndian initial calls)[j]? = some receipt' → receipt ≠ receipt'

/-! ### One call -/

def nextReceipt (receipt : UInt32) : UInt32 := if receipt + 1 = 0 then 1 else receipt + 1

variable {isBigEndian : Bool} {s : SendingPeer} {c : SendCall}

theorem receiptPacket_injective {receipt receipt' : UInt32}
    (h : receiptPacket isBigEndian receipt = receiptPacket isBigEndian receipt') :
    receipt = receipt' := by
  have himage : ∀ a b : BitVec (IntegerWidth.bits .w32), image a = image b → a = b := by
    intro a b hab
    rw [← ofImage_image a, hab, ofImage_image]
  have hnative := (List.cons.inj h).2
  apply UInt32.toBitVec_inj.mp
  cases isBigEndian with
  | true => exact himage _ _ (List.reverse_injective hnative)
  | false => exact himage _ _ hnative

theorem nextReceipt_ne (receipt : UInt32) : nextReceipt receipt ≠ receipt := by
  have hlt := receipt.toNat_lt
  intro h
  have hnat := congrArg UInt32.toNat h
  rw [nextReceipt] at hnat
  split at hnat
  · rename_i hzero
    have hzero := congrArg UInt32.toNat hzero
    rw [UInt32.toNat_add] at hzero
    simp at hzero hnat
    omega
  · rw [UInt32.toNat_add] at hnat
    simp at hnat
    omega

theorem usedSendReceipt_serial (s : SendingPeer) (arguments : SendArguments) :
    (s.usedSendReceipt arguments).2.sendReceiptSerial =
      if arguments.forceReceiptNumber = 0 then nextReceipt s.sendReceiptSerial
      else s.sendReceiptSerial := by
  rw [usedSendReceipt]
  by_cases hforce : arguments.forceReceiptNumber = 0
  · rw [if_neg (by simpa using hforce), if_pos hforce]
    rfl
  · rw [if_pos hforce, if_neg hforce]

theorem usedSendReceipt_queue (s : SendingPeer) (arguments : SendArguments) :
    (s.usedSendReceipt arguments).2.packetReturnQueue = s.packetReturnQueue := by
  rw [usedSendReceipt]
  split <;> rfl

theorem sendBytes_loopback {data : List UInt8} {arguments : SendArguments}
    (hbroadcast : arguments.broadcast = false) (htarget : arguments.target = .loopback)
    (hreceipt : arguments.reliability.hasAckReceipt = true) :
    (s.sendBytes isBigEndian data arguments).1 = (s.usedSendReceipt arguments).1 ∧
      (s.sendBytes isBigEndian data arguments).2.packetReturnQueue =
        s.packetReturnQueue ++ [data, receiptPacket isBigEndian
          (s.usedSendReceipt arguments).2.sendReceiptSerial] := by
  rw [sendBytes, if_neg (by simp [htarget])]
  dsimp only
  rw [if_pos ⟨hbroadcast, htarget⟩, if_pos hreceipt]
  refine ⟨rfl, ?_⟩
  show (s.usedSendReceipt arguments).2.packetReturnQueue ++ [data] ++ _ = _
  rw [usedSendReceipt_queue, List.append_assoc]
  rfl

/-- The receipt of a `Send` carries the next number, which is the one that is returned only if it
was forced. -/
theorem answered_bytes_iff {data : List UInt8} {arguments : SendArguments}
    (hbroadcast : arguments.broadcast = false) (htarget : arguments.target = .loopback)
    (hreceipt : arguments.reliability.hasAckReceipt = true) :
    (s.sendBytes isBigEndian data arguments).2.packetReturnQueue = s.packetReturnQueue ++
        [data, receiptPacket isBigEndian (s.sendBytes isBigEndian data arguments).1] ↔
      arguments.forceReceiptNumber ≠ 0 ∧ arguments.forceReceiptNumber = s.sendReceiptSerial := by
  obtain ⟨hused, hqueue⟩ :=
    @sendBytes_loopback isBigEndian s data arguments hbroadcast htarget hreceipt
  have hserial := usedSendReceipt_serial s arguments
  rw [hqueue, hused]
  constructor
  · intro heq
    have hpackets := List.append_cancel_left heq
    have hsame := receiptPacket_injective (List.cons.inj (List.cons.inj hpackets).2).1
    by_cases hforce : arguments.forceReceiptNumber = 0
    · rw [if_pos hforce] at hserial
      have hdrawn : (s.usedSendReceipt arguments).1 = s.sendReceiptSerial := by
        rw [usedSendReceipt, if_neg (by simpa using hforce)]
        rfl
      rw [hserial, hdrawn] at hsame
      exact absurd hsame (nextReceipt_ne _)
    · rw [if_neg hforce] at hserial
      have hforced : (s.usedSendReceipt arguments).1 = arguments.forceReceiptNumber := by
        rw [usedSendReceipt, if_pos hforce]
      rw [hserial, hforced] at hsame
      exact ⟨hforce, hsame.symm⟩
  · rintro ⟨hforce, hsame⟩
    rw [if_neg hforce] at hserial
    rw [hserial, usedSendReceipt, if_pos hforce, hsame]

theorem call_of_refused (s : SendingPeer) (h : c.message = none) :
    s.call isBigEndian c = (0, s) := by
  cases c with
  | sendData data arguments =>
    obtain rfl : data = none := h
    rfl
  | sendBitStream bitStream arguments =>
    by_cases hnil : bitStream = []
    · rw [call, if_pos hnil]
    · exact absurd h (by simp [SendCall.message, hnil])
  | sendList data arguments =>
    by_cases hnil : data = []
    · rw [call, if_pos hnil]
    · exact absurd h (by simp [SendCall.message, hnil])

theorem call_of_undefined (s : SendingPeer)
    (h : c.arguments.broadcast = false ∧ c.arguments.target = .undefined) :
    s.call isBigEndian c = (0, s) := by
  cases c with
  | sendData data arguments =>
    cases data with
    | none => rfl
    | some data => exact if_pos h
  | sendBitStream bitStream arguments =>
    by_cases hnil : bitStream = []
    · rw [call, if_pos hnil]
    · rw [call, if_neg hnil]
      exact if_pos h
  | sendList data arguments =>
    by_cases hnil : data = []
    · rw [call, if_pos hnil]
    · rw [call, if_neg hnil]
      exact if_pos h

theorem call_of_bytes (s : SendingPeer) {data : List UInt8} (hdata : c.message = some data)
    (hlist : c.isList = false) :
    s.call isBigEndian c = s.sendBytes isBigEndian data c.arguments := by
  cases c with
  | sendData data' arguments =>
    obtain rfl : data' = some data := hdata
    rfl
  | sendBitStream bitStream arguments =>
    by_cases hnil : bitStream = []
    · exact absurd hdata (by simp [SendCall.message, hnil])
    · obtain rfl : bitStream = data := by simpa [SendCall.message, hnil] using hdata
      rw [call, if_neg hnil]
      rfl
  | sendList => exact absurd hlist nofun

theorem call_sendList (s : SendingPeer) {data : List (List UInt8)} {arguments : SendArguments}
    (hne : data ≠ [])
    (hdefined : ¬ (arguments.broadcast = false ∧ arguments.target = .undefined)) :
    s.call isBigEndian (.sendList data arguments) = ((s.usedSendReceipt arguments).1,
      (s.usedSendReceipt arguments).2.sendBufferedList data arguments
        (s.usedSendReceipt arguments).1) := by
  rw [call, if_neg hne, if_neg hdefined]

theorem answered_iff (h : c.AsksLoopback) :
    Answered isBigEndian s c ↔ c.isList = false ∧ c.arguments.forceReceiptNumber ≠ 0 ∧
      c.arguments.forceReceiptNumber = s.sendReceiptSerial := by
  obtain ⟨hmessage, hbroadcast, htarget, hreceipt⟩ := h
  cases hlist : c.isList with
  | false =>
    obtain ⟨data, hdata⟩ := Option.ne_none_iff_exists'.mp hmessage
    have hiff := @answered_bytes_iff isBigEndian s data c.arguments hbroadcast htarget hreceipt
    rw [← hiff, Answered, call_of_bytes s hdata hlist]
    constructor
    · rintro ⟨message, hsome, hqueue⟩
      obtain rfl : data = message := Option.some.inj (hdata.symm.trans hsome)
      exact ⟨rfl, hqueue⟩
    · rintro ⟨-, hqueue⟩
      exact ⟨data, hdata, hqueue⟩
  | true =>
    refine ⟨?_, fun hsend => absurd hsend.1 nofun⟩
    rintro ⟨message, -, hqueue⟩
    have hlength := congrArg List.length hqueue
    cases c with
    | sendData => exact absurd hlist nofun
    | sendBitStream => exact absurd hlist nofun
    | sendList data arguments =>
      have hne : data ≠ [] := fun hnil => hmessage (if_pos hnil)
      have htarget : arguments.target = .loopback := htarget
      have hbroadcast : arguments.broadcast = false := hbroadcast
      rw [call_sendList s hne (by simp [htarget])] at hlength
      dsimp only at hlength
      rw [sendBufferedList, if_pos (And.intro hbroadcast htarget)] at hlength
      have hsame := usedSendReceipt_queue s arguments
      split at hlength
      · rw [hsame, List.length_append] at hlength
        simp at hlength
      · rw [sendLoopback, hsame, List.length_append, List.length_append] at hlength
        simp at hlength

theorem sendBytes_serial (s : SendingPeer) (data : List UInt8) (arguments : SendArguments) :
    (s.sendBytes isBigEndian data arguments).2.sendReceiptSerial =
      if arguments.broadcast = false ∧ arguments.target = .undefined then s.sendReceiptSerial
      else (s.usedSendReceipt arguments).2.sendReceiptSerial := by
  rw [sendBytes]
  split
  · rfl
  · dsimp only
    split
    · split <;> rfl
    · rfl

theorem sendBufferedList_serial (s : SendingPeer) (data : List (List UInt8))
    (arguments : SendArguments) (receipt : UInt32) :
    (s.sendBufferedList data arguments receipt).sendReceiptSerial = s.sendReceiptSerial := by
  rw [sendBufferedList]
  split
  · rfl
  · split <;> rfl

theorem call_serial (s : SendingPeer) (c : SendCall) :
    (s.call isBigEndian c).2.sendReceiptSerial =
      if c.Accepted ∧ c.arguments.forceReceiptNumber = 0 then nextReceipt s.sendReceiptSerial
      else s.sendReceiptSerial := by
  cases hdata : c.message with
  | none => rw [call_of_refused s hdata, if_neg fun h => h.1.1 hdata]
  | some data =>
    have hmessage : c.message ≠ none := by
      rw [hdata]
      exact nofun
    by_cases hundefined : c.arguments.broadcast = false ∧ c.arguments.target = .undefined
    · rw [call_of_undefined s hundefined, if_neg fun h => h.1.2 hundefined]
    · have hdrawn : (s.call isBigEndian c).2.sendReceiptSerial =
          (s.usedSendReceipt c.arguments).2.sendReceiptSerial := by
        cases hlist : c.isList with
        | false => rw [call_of_bytes s hdata hlist, sendBytes_serial, if_neg hundefined]
        | true =>
          cases c with
          | sendData => exact absurd hlist nofun
          | sendBitStream => exact absurd hlist nofun
          | sendList data arguments =>
            have hne : data ≠ [] := fun hnil => hmessage (if_pos hnil)
            have hcall := @call_sendList isBigEndian s data arguments hne hundefined
            rw [hcall, sendBufferedList_serial]
            rfl
      rw [hdrawn, usedSendReceipt_serial]
      by_cases hforce : c.arguments.forceReceiptNumber = 0
      · rw [if_pos hforce, if_pos ⟨⟨hmessage, hundefined⟩, hforce⟩]
      · rw [if_neg hforce, if_neg fun h => hforce h.2]

/-! ### The numbers of a run -/

theorem nextReceipt_iterate (i : ℕ) :
    (nextReceipt^[i] 1).toNat = i % (2 ^ 32 - 1) + 1 := by
  induction i with
  | zero => rfl
  | succ i ih =>
    rw [Function.iterate_succ_apply']
    generalize nextReceipt^[i] 1 = receipt at ih ⊢
    have hzero : receipt + 1 = 0 ↔ (receipt.toNat + 1) % 2 ^ 32 = 0 := by
      rw [← UInt32.toNat_inj, UInt32.toNat_add]
      rfl
    have hadd : (receipt + 1).toNat = (receipt.toNat + 1) % 2 ^ 32 := UInt32.toNat_add _ _
    rw [nextReceipt]
    split
    · rename_i hwrap
      rw [hzero] at hwrap
      show 1 = _
      omega
    · rename_i hwrap
      rw [hzero] at hwrap
      rw [hadd]
      omega

theorem drawn_eq (s : SendingPeer) (calls : List SendCall) :
    ∃ count, drawn isBigEndian s calls =
      (List.range count).map fun i => nextReceipt^[i] s.sendReceiptSerial := by
  induction calls generalizing s with
  | nil => exact ⟨0, rfl⟩
  | cons c calls ih =>
    obtain ⟨count, hcount⟩ := ih (s.call isBigEndian c).2
    rw [call_serial] at hcount
    rw [drawn, hcount]
    by_cases hdraws : c.Accepted ∧ c.arguments.forceReceiptNumber = 0
    · refine ⟨count + 1, ?_⟩
      rw [if_pos hdraws, if_pos hdraws, List.range_succ_eq_map, List.map_cons, List.map_map]
      rfl
    · refine ⟨count, ?_⟩
      rw [if_neg hdraws, if_neg hdraws]
      rfl

/-- The receipts identify their messages exactly if every call for the own system that asks for
one is a `Send` that forces the number which is drawn next. -/
theorem receiptsIdentify_iff (isBigEndian : Bool) (calls : List SendCall) :
    ReceiptsIdentify isBigEndian calls ↔
      ∀ before c after, calls = before ++ c :: after → c.AsksLoopback →
        c.isList = false ∧ c.arguments.forceReceiptNumber ≠ 0 ∧
          c.arguments.forceReceiptNumber =
            (run isBigEndian initial before).sendReceiptSerial := by
  obtain ⟨count, hdrawn⟩ := @drawn_eq isBigEndian initial calls
  have hat : ∀ {i receipt}, (drawn isBigEndian initial calls)[i]? = some receipt →
      receipt.toNat = i % (2 ^ 32 - 1) + 1 := by
    intro i receipt hi
    rw [hdrawn, List.getElem?_map] at hi
    obtain ⟨k, hk, rfl⟩ := Option.map_eq_some_iff.mp hi
    obtain ⟨hlt, rfl⟩ := List.getElem?_eq_some_iff.mp hk
    rw [List.getElem_range]
    exact nextReceipt_iterate i
  constructor
  · intro h before c after heq hasks
    exact (answered_iff hasks).mp (h.answered before c after heq hasks)
  · intro h
    refine ⟨fun before c after heq hasks => (answered_iff hasks).mpr (h before c after heq hasks),
      fun receipt hmem hzero => ?_, fun i j receipt receipt' hij hnear hi hj heq => ?_⟩
    · obtain ⟨i, hi⟩ := List.getElem?_of_mem hmem
      have hnat := hat hi
      rw [hzero] at hnat
      exact absurd hnat (Nat.succ_ne_zero _).symm
    · have hi := hat hi
      have hj := hat hj
      rw [heq, hj] at hi
      omega

/-- The first message to the own system gets the number 1, and its receipt the number 2. -/
theorem first_receipt_differs :
    ¬ ∀ (isBigEndian : Bool) (calls : List SendCall), ReceiptsIdentify isBigEndian calls := by
  intro h
  have hasks : (SendCall.sendData (some [134])
      ⟨.reliableWithAckReceipt, .loopback, false, 0⟩).AsksLoopback := by
    refine ⟨nofun, rfl, rfl, rfl⟩
  obtain ⟨message, hmessage, hqueue⟩ := (h false [_]).answered [] _ [] rfl hasks
  obtain rfl := Option.some.inj hmessage
  revert hqueue
  decide

end SendingPeer

end SLikeNet
