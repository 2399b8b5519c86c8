import Mathlib.Data.List.Forall2
import Mathlib.Data.List.GetD
import SLikeNet.Library.BitCodec
import SLikeNet.Packet
import SLikeNet.StreamWrites

/-! The messages in which `ReplicaManager3` sends the channels of a serialization. -/

namespace SLikeNet

open BitCursor PacketReads BitCodec

namespace SerializationChannels

structure PRO where
  priority : PacketPriority
  reliability : PacketReliability
  orderingChannel : UInt8
  sendReceipt : UInt32
deriving DecidableEq

/-- What `SendSerialize` gets for one channel. The unread bits of the stream are all of its bits,
which a `BitSize_t` counts. -/
structure Channel where
  indexToSend : Bool
  bits : List Bool
  sendParameters : PRO
  size_lt : bits.length < 2 ^ 32

structure Header where
  timestamp : UInt64
  worldId : UInt8
  networkId : UInt64

/-- What is written of one channel: `none` for `false`. -/
abbrev Entry := Option (List Bool)

structure Message where
  sendParameters : PRO
  data : List Bool

/-! ### Writing -/

def idTimestamp : ℕ := 27

def idReplicaManagerSerialize : ℕ := 41

def sendSerializeHeader (h : Header) : Write :=
  append ((if h.timestamp = 0 then [] else
      BitStream.toBits 8 idTimestamp ++ BitStream.toBits 64 h.timestamp.toNat) ++
    (BitStream.toBits 8 idReplicaManagerSerialize ++ BitStream.toBits 8 h.worldId.toNat)) >=>
  append (BitStream.toBits (8 * 8) h.networkId.toNat)

/-- `AlignWriteToByteBoundary` -/
def alignWriteToByteBoundary : Write := fun out => some (BitStream.align out)

def writeEntry : Entry → Write
  | none => append [false]
  | some bits => append [true] >=> (append (StreamWrites.writeCompressed 4 bits.length) >=>
      (alignWriteToByteBoundary >=> append bits))

def writeEntries : List Entry → Write
  | [] => some
  | entry :: entries => writeEntry entry >=> writeEntries entries

/-- The bits of `out` with a header and what has been written of the channels. -/
def streamOf (h : Header) (entries : List Entry) : List Bool :=
  ((sendSerializeHeader h >=> writeEntries entries) []).getD []

def channelHasData (c : Channel) : Bool := c.indexToSend && decide (0 < c.bits.length)

def entryOf (c : Channel) : Entry := if channelHasData c then some c.bits else none

/-- The loop of `SendSerialize`, where `out` is what has been written of the channels before. -/
def sendChannels : List Entry → PRO → List Channel → List (PRO × List Entry)
  | out, lastPro, [] => [(lastPro, out)]
  | out, lastPro, c :: rest =>
    if out.length ≠ 0 ∧ lastPro ≠ c.sendParameters then
      (lastPro, out ++ List.replicate (rest.length + 1) none) ::
        -- Here the flags of the channels are not looked at.
        if (c :: rest).any fun c => decide (0 < c.bits.length) then
          sendChannels (List.replicate out.length none ++ [entryOf c]) c.sendParameters rest
        else []
    else sendChannels (out ++ [entryOf c]) lastPro rest

/-- The bits of the channels that are to be sent, in a `BitSize_t`. -/
def sum (channels : List Channel) : ℕ :=
  (channels.map fun c => if c.indexToSend then c.bits.length else 0).sum % 2 ^ 32

/-- `sent` is what the loop sends, with the entries in place of the stream. -/
def sent (channels : List Channel) : List (PRO × List Entry) :=
  match channels with
  | [] => []
  | c :: rest => if sum (c :: rest) = 0 then [] else sendChannels [] c.sendParameters (c :: rest)

def sendSerialize (h : Header) (channels : List Channel) : List Message :=
  (sent channels).map fun m => ⟨m.1, streamOf h m.2⟩

/-! ### Reading -/

/-- There is no result where `bitstreamWrittenTo` or `bitsUsed` is not read. -/
def readEntry : Access Entry := do
  match ← readBool with
  | none => failure
  | some false => pure none
  | some true =>
    match ← readCompressed 4 with
    | none => failure
    | some bitsUsed => do
      alignReadToByteBoundary
      some <$> guarded bitsUsed [] id

def readEntries : ℕ → Access (List Entry)
  | 0 => pure []
  | channels + 1 => do
    let entry ← readEntry
    (entry :: ·) <$> readEntries channels

/-- `OnSerialize`: the network id and the parameters of `Deserialize`. -/
def onSerialize (packetDataOffset channels : ℕ) : Access (Option ℕ × List Entry) := do
  ignoreBits (packetDataOffset * 8)
  let networkId ← readNumber 8
  (networkId, ·) <$> readEntries channels

/-- The offset that `OnReceive` passes on. -/
def packetDataOffset (h : Header) : ℕ := if h.timestamp = 0 then 2 else 11

/-- Whoever receives a packet with this stream reads these entries. -/
def Presents (h : Header) (stream : List Bool) (entries : List Entry) : Prop :=
  ∀ memory numberOfBits, stream <+: bitsOf memory → stream.length ≤ numberOfBits →
    numberOfBits ≤ memory.length * 8 →
    ∃ c, onSerialize (packetDataOffset h) entries.length ⟨memory, numberOfBits, 0⟩ =
      some ((some h.networkId.toNat, entries), c)

/-! ### What is written is read -/

theorem readsBack_align : ReadsBack alignWriteToByteBoundary alignReadToByteBoundary () := by
  intro before
  refine ⟨List.replicate (BitStream.padding before.length) false, rfl, fun c hoffset _ => ?_⟩
  rw [List.length_replicate, ← hoffset]
  rfl

theorem readsBack_bits (bits : List Bool) :
    ReadsBack (append bits) (guarded bits.length [] id) bits :=
  readsBack_append fun _ hahead => guarded_ahead [] id hahead rfl

theorem readsBack_flag (b : Bool) : ReadsBack (append [b]) readBool (some b) :=
  readsBack_append fun _ hahead => readBool_ahead hahead

theorem readsBack_entry {entry : Entry} (h : ∀ bits, entry = some bits → bits.length < 2 ^ 32) :
    ReadsBack (writeEntry entry) readEntry entry := by
  cases entry with
  | none =>
    intro before
    obtain ⟨written, hwrite, hread⟩ := readsBack_flag false before
    exact ⟨written, hwrite, fun c hoffset hahead => bind_of_run (hread c hoffset hahead)⟩
  | some bits =>
    have hlt : bits.length < 256 ^ 4 := h bits rfl
    refine (readsBack_flag true).bind ?_
    refine (readsBack_append fun c hahead =>
      StreamWrites.readCompressed_ahead (by decide) hlt hahead).bind ?_
    refine readsBack_align.bind ?_
    exact (readsBack_bits bits).map some

theorem readsBack_entries {entries : List Entry}
    (h : ∀ bits, some bits ∈ entries → bits.length < 2 ^ 32) :
    ReadsBack (writeEntries entries) (readEntries entries.length) entries := by
  induction entries with
  | nil => exact readsBack_pure []
  | cons entry entries ih =>
    refine (readsBack_entry fun bits heq => h bits (heq ▸ List.mem_cons_self)).bind ?_
    exact (ih fun bits hmem => h bits (List.mem_cons_of_mem _ hmem)).map (entry :: ·)

theorem readsBack_message (h : Header) {entries : List Entry}
    (hentries : ∀ bits, some bits ∈ entries → bits.length < 2 ^ 32) :
    ReadsBack (sendSerializeHeader h >=> writeEntries entries)
      (onSerialize (packetDataOffset h) entries.length) (some h.networkId.toNat, entries) := by
  have hignore : ∀ bits : List Bool, ReadsBack (append bits) (ignoreBits bits.length) () :=
    fun bits => readsBack_append fun c _ => rfl
  rw [sendSerializeHeader, append_assoc, onSerialize]
  have hlength : packetDataOffset h * 8 = ((if h.timestamp = 0 then [] else
      BitStream.toBits 8 idTimestamp ++ BitStream.toBits 64 h.timestamp.toNat) ++
    (BitStream.toBits 8 idReplicaManagerSerialize ++
      BitStream.toBits 8 h.worldId.toNat)).length := by
    rw [packetDataOffset]
    split <;> simp [BitStream.length_toBits]
  rw [hlength]
  refine (hignore _).bind ?_
  have hid : ReadsBack (append (BitStream.toBits (8 * 8) h.networkId.toNat)) (readNumber 8)
      (some h.networkId.toNat) := by
    refine readsBack_append fun c hahead => ?_
    rw [BitStream.length_toBits]
    exact readNumber_ahead (by decide) h.networkId.toNat_lt hahead
  exact hid.bind ((readsBack_entries hentries).map _)

theorem presents_streamOf (h : Header) {entries : List Entry}
    (hentries : ∀ bits, some bits ∈ entries → bits.length < 2 ^ 32) :
    Presents h (streamOf h entries) entries := by
  intro memory numberOfBits hmemory hbits hinside
  have hread := (readsBack_message h hentries).yields
  obtain ⟨out, hout⟩ := hread.exists_out
  have hstream : streamOf h entries = out := by
    rw [streamOf, hout, Option.getD_some]
  rw [hstream] at hmemory hbits
  exact hread.from_empty hout hmemory hbits hinside

theorem presents_unique {h : Header} {stream : List Bool} {entries entries' : List Entry}
    (hpresents : Presents h stream entries) (hpresents' : Presents h stream entries')
    (hlength : entries.length = entries'.length) : entries = entries' := by
  obtain ⟨memory, hmemory, hle⟩ := exists_memory stream
  obtain ⟨c, hc⟩ := hpresents memory _ hmemory hle (Nat.le_refl _)
  obtain ⟨c', hc'⟩ := hpresents' memory _ hmemory hle (Nat.le_refl _)
  rw [hlength, hc'] at hc
  exact (congrArg (fun r => r.1.2) (Option.some.inj hc)).symm

/-! ### The messages of the loop -/

/-- What a message tells of one channel. -/
def tells (z : ℕ) (m : PRO × List Entry) : Option (PRO × List Bool) :=
  (m.2.getD z none).map fun bits => (m.1, bits)

/-- What is to be told of a channel. -/
def toTell (c : Channel) : Option (PRO × List Bool) :=
  if c.indexToSend = true ∧ c.bits ≠ [] then some (c.sendParameters, c.bits) else none

theorem map_entryOf (c : Channel) :
    (entryOf c).map (fun bits => (c.sendParameters, bits)) = toTell c := by
  rw [entryOf, toTell, channelHasData]
  cases c.indexToSend with
  | false => simp
  | true =>
    by_cases hbits : c.bits = []
    · simp [hbits]
    · simp [hbits, List.length_pos_iff]

theorem toTell_of_empty {c : Channel} (h : ¬ 0 < c.bits.length) : toTell c = none :=
  if_neg fun hboth => h (List.length_pos_of_ne_nil hboth.2)

variable {out : List Entry} {lastPro : PRO} {c : Channel} {rest : List Channel} {z : ℕ}

theorem sendChannels_of_eq (h : lastPro = c.sendParameters) :
    sendChannels out lastPro (c :: rest) = sendChannels (out ++ [entryOf c]) lastPro rest := by
  rw [sendChannels, if_neg fun hboth => hboth.2 h]

theorem sendChannels_of_ne (hout : out ≠ []) (h : lastPro ≠ c.sendParameters) :
    sendChannels out lastPro (c :: rest) =
      (lastPro, out ++ List.replicate (rest.length + 1) none) ::
        if (c :: rest).any fun c => decide (0 < c.bits.length) then
          sendChannels (List.replicate out.length none ++ [entryOf c]) c.sendParameters rest
        else [] := by
  rw [sendChannels, if_pos ⟨mt List.length_eq_zero_iff.mp hout, h⟩]

theorem filterMap_cons_toList {α β : Type} (f : α → Option β) (a : α) (l : List α) :
    (a :: l).filterMap f = (f a).toList ++ l.filterMap f := by
  cases hf : f a with
  | none => simp [hf]
  | some b => simp [hf]

theorem tells_concat (before : List Entry) :
    (if z < (before ++ [entryOf c]).length then tells z (c.sendParameters, before ++ [entryOf c])
      else (rest[z - (before ++ [entryOf c]).length]?).bind toTell) =
        if z < before.length then tells z (c.sendParameters, before)
        else ((c :: rest)[z - before.length]?).bind toTell := by
  rw [List.length_append, List.length_singleton]
  obtain hlt | rfl | hgt := Nat.lt_trichotomy z before.length
  · rw [if_pos (by omega), if_pos hlt, tells, tells, List.getD_append _ _ _ _ hlt]
  · rw [if_pos (by omega), if_neg (Nat.lt_irrefl _), Nat.sub_self, tells,
      List.getD_append_right _ _ _ _ (Nat.le_refl _), Nat.sub_self]
    exact map_entryOf c
  · rw [if_neg (by omega), if_neg (by omega), show z - before.length =
      z - (before.length + 1) + 1 by omega, List.getElem?_cons_succ]

theorem tells_replicate (pro : PRO) (n : ℕ) : tells z (pro, List.replicate n none) = none := by
  rw [tells, List.getD_eq_getElem?_getD, List.getElem?_getD_replicate_default_eq]
  rfl

theorem tells_append_replicate (n : ℕ) : tells z (lastPro, out ++ List.replicate n none) =
    if z < out.length then tells z (lastPro, out) else none := by
  split
  · next hlt => rw [tells, tells, List.getD_append _ _ _ _ hlt]
  · next hge =>
    rw [tells, List.getD_append_right _ _ _ _ (Nat.le_of_not_lt hge),
      List.getD_eq_getElem?_getD, List.getElem?_getD_replicate_default_eq]
    rfl

theorem filterMap_tells (hstart : out = [] → ∀ c ∈ rest.head?, lastPro = c.sendParameters) :
    (sendChannels out lastPro rest).filterMap (tells z) =
      (if z < out.length then tells z (lastPro, out)
        else (rest[z - out.length]?).bind toTell).toList := by
  induction rest generalizing out lastPro with
  | nil =>
    rw [sendChannels, filterMap_cons_toList, List.filterMap_nil, List.append_nil]
    split
    · rfl
    · next hge =>
      rw [tells, List.getD_eq_default _ _ (Nat.le_of_not_lt hge)]
      rfl
  | cons c rest ih =>
    have hentry : ∀ before : List Entry, ∀ pro, (before ++ [entryOf c] = [] →
        ∀ c ∈ rest.head?, pro = c.sendParameters) := fun before pro hnil =>
      absurd hnil (by simp)
    by_cases heq : lastPro = c.sendParameters
    · rw [sendChannels_of_eq heq, ih (hentry out lastPro), heq, tells_concat]
    · have hout : out ≠ [] := fun hnil => heq (hstart hnil c rfl)
      have hnew := @tells_concat c rest z (List.replicate out.length none)
      rw [tells_replicate, List.length_replicate] at hnew
      rw [sendChannels_of_ne hout heq, filterMap_cons_toList, tells_append_replicate]
      by_cases hany : ((c :: rest).any fun c => decide (0 < c.bits.length)) = true
      · rw [if_pos hany, ih (hentry _ c.sendParameters), hnew]
        split
        · exact List.append_nil _
        · rfl
      · rw [if_neg hany, List.filterMap_nil, List.append_nil]
        split
        · rfl
        · -- The rest has no bits, so that there is nothing to tell of it.
          cases hget : (c :: rest)[z - out.length]? with
          | none => rfl
          | some d =>
            rw [Option.bind_some, toTell_of_empty]
            intro hpos
            exact hany (List.any_eq_true.mpr
              ⟨d, List.mem_of_getElem? hget, decide_eq_true hpos⟩)

theorem length_of_mem_sendChannels {m : PRO × List Entry}
    (hm : m ∈ sendChannels out lastPro rest) : m.2.length = out.length + rest.length := by
  induction rest generalizing out lastPro with
  | nil =>
    rw [sendChannels, List.mem_singleton] at hm
    rw [hm, List.length_nil, Nat.add_zero]
  | cons c rest ih =>
    rw [sendChannels] at hm
    split at hm
    · obtain rfl | hm := List.mem_cons.mp hm
      · simp
      · split at hm
        · rw [ih hm, List.length_append, List.length_replicate, List.length_singleton,
            List.length_cons]
          omega
        · exact absurd hm List.not_mem_nil
    · rw [ih hm, List.length_append, List.length_singleton, List.length_cons]
      omega

theorem bits_lt_of_mem_sendChannels (hout : ∀ bits, some bits ∈ out → bits.length < 2 ^ 32)
    {m : PRO × List Entry} (hm : m ∈ sendChannels out lastPro rest) :
    ∀ bits, some bits ∈ m.2 → bits.length < 2 ^ 32 := by
  have hentry : ∀ (c : Channel) bits, some bits = entryOf c → bits.length < 2 ^ 32 := by
    intro c bits heq
    rw [entryOf] at heq
    split at heq
    · rw [Option.some.inj heq]
      exact c.size_lt
    · cases heq
  induction rest generalizing out lastPro with
  | nil =>
    rw [sendChannels, List.mem_singleton] at hm
    rw [hm]
    exact hout
  | cons c rest ih =>
    have hconcat : ∀ before : List Entry, (∀ bits, some bits ∈ before → bits.length < 2 ^ 32) →
        ∀ bits, some bits ∈ before ++ [entryOf c] → bits.length < 2 ^ 32 := by
      intro before hbefore bits hmem
      obtain hmem | hmem := List.mem_append.mp hmem
      · exact hbefore bits hmem
      · exact hentry c bits (List.mem_singleton.mp hmem)
    have hnone : ∀ n bits, some bits ∈ List.replicate n (none : Entry) → bits.length < 2 ^ 32 :=
      fun n bits hmem => absurd (List.eq_of_mem_replicate hmem) (by simp)
    rw [sendChannels] at hm
    split at hm
    · obtain rfl | hm := List.mem_cons.mp hm
      · intro bits hmem
        obtain hmem | hmem := List.mem_append.mp hmem
        · exact hout bits hmem
        · exact hnone _ bits hmem
      · split at hm
        · exact ih (hconcat _ (hnone _)) hm
        · exact absurd hm List.not_mem_nil
    · exact ih (hconcat _ hout) hm

/-! ### Messages with a channel -/

def HasChannel (entries : List Entry) : Prop := ∃ bits, some bits ∈ entries

/-- Of the channels from `c` on that have its parameters, one is sent. -/
def GroupHasData (c : Channel) (after : List Channel) : Prop :=
  ∃ d ∈ (c :: after).takeWhile fun d => d.sendParameters = c.sendParameters,
    d.indexToSend = true ∧ d.bits ≠ []

/-- In each group of channels with the same parameters one is sent if it is the first group, or if
there are bits in it or behind it. -/
structure GroupsHaveData (channels : List Channel) : Prop where
  first : ∀ c after, channels = c :: after → GroupHasData c after
  later : ∀ before b c after, channels = before ++ b :: c :: after →
    b.sendParameters ≠ c.sendParameters → (∃ d ∈ c :: after, d.bits ≠ []) → GroupHasData c after

/-- What is asked of the groups that begin behind a channel with the parameters `pro`. -/
def LaterGroups (pro : PRO) : List Channel → Prop
  | [] => True
  | c :: after => (pro ≠ c.sendParameters → (∃ d ∈ c :: after, d.bits ≠ []) →
      GroupHasData c after) ∧ LaterGroups c.sendParameters after

theorem laterGroups_iff {b : Channel} {channels : List Channel} :
    LaterGroups b.sendParameters channels ↔ ∀ before b' c after,
      b :: channels = before ++ b' :: c :: after → b'.sendParameters ≠ c.sendParameters →
        (∃ d ∈ c :: after, d.bits ≠ []) → GroupHasData c after := by
  induction channels generalizing b with
  | nil =>
    refine iff_of_true trivial fun before b' c after heq => ?_
    have hlength := congrArg List.length heq
    simp at hlength
    omega
  | cons c channels ih =>
    rw [LaterGroups, ih]
    constructor
    · rintro ⟨hfirst, hlater⟩ before b' c' after heq
      cases before with
      | nil =>
        obtain ⟨rfl, rfl, rfl⟩ : b = b' ∧ c = c' ∧ channels = after := by simpa using heq
        exact hfirst
      | cons b'' before => exact hlater before b' c' after (List.cons.inj heq).2
    · intro h
      refine ⟨h [] b c channels rfl, fun before b' c' after heq => ?_⟩
      exact h (b :: before) b' c' after (by rw [heq, List.cons_append])

theorem groupsHaveData_cons_iff : GroupsHaveData (c :: rest) ↔
    GroupHasData c rest ∧ LaterGroups c.sendParameters rest := by
  rw [laterGroups_iff]
  constructor
  · exact fun h => ⟨h.first c rest rfl, h.later⟩
  · rintro ⟨hfirst, hlater⟩
    refine ⟨fun c' after heq => ?_, hlater⟩
    obtain ⟨rfl, rfl⟩ := List.cons.inj heq
    exact hfirst

theorem hasChannel_concat_iff : HasChannel (out ++ [entryOf c]) ↔
    HasChannel out ∨ c.indexToSend = true ∧ c.bits ≠ [] := by
  have hentry : (∃ bits, some bits = entryOf c) ↔ c.indexToSend = true ∧ c.bits ≠ [] := by
    rw [entryOf, channelHasData]
    cases c.indexToSend with
    | false => simp
    | true =>
      by_cases hbits : c.bits = []
      · simp [hbits]
      · simp [hbits, List.length_pos_iff]
  simp only [HasChannel, List.mem_append, List.mem_singleton, exists_or, hentry]

theorem hasChannel_append_replicate (n : ℕ) :
    HasChannel (out ++ List.replicate n none) ↔ HasChannel out := by
  refine exists_congr fun bits => ?_
  rw [List.mem_append, or_iff_left]
  intro hmem
  cases List.eq_of_mem_replicate hmem

theorem not_hasChannel_replicate (n : ℕ) : ¬ HasChannel (List.replicate n none) := by
  rintro ⟨bits, hmem⟩
  cases List.eq_of_mem_replicate hmem

theorem takeWhile_of_eq {pro : PRO} (h : c.sendParameters = pro) :
    (c :: rest).takeWhile (fun d => decide (d.sendParameters = pro)) =
      c :: rest.takeWhile fun d => decide (d.sendParameters = pro) := by
  rw [List.takeWhile_cons, if_pos (decide_eq_true h)]

theorem takeWhile_of_ne {pro : PRO} (h : c.sendParameters ≠ pro) :
    (c :: rest).takeWhile (fun d => decide (d.sendParameters = pro)) = [] := by
  rw [List.takeWhile_cons, if_neg fun heq => h (of_decide_eq_true heq)]

theorem any_bits_iff {channels : List Channel} :
    (channels.any fun c => decide (0 < c.bits.length)) = true ↔ ∃ d ∈ channels, d.bits ≠ [] := by
  rw [List.any_eq_true]
  refine exists_congr fun d => and_congr_right fun _ => ?_
  rw [decide_eq_true_iff, List.length_pos_iff]

theorem laterGroups_of_no_bits {b : Channel} {channels : List Channel}
    (h : ¬∃ d ∈ channels, d.bits ≠ []) : LaterGroups b.sendParameters channels := by
  refine laterGroups_iff.mpr fun before b' c after hsplit _ ⟨d, hd, hne⟩ => absurd ⟨d, ?_, hne⟩ h
  cases before with
  | nil =>
    rw [(List.cons.inj hsplit).2]
    exact hd
  | cons x before =>
    rw [(List.cons.inj hsplit).2]
    exact List.mem_append_right _ (List.mem_cons_of_mem _ hd)

theorem hasChannel_sendChannels_iff
    (hstart : out = [] → ∀ c ∈ rest.head?, lastPro = c.sendParameters) :
    (∀ m ∈ sendChannels out lastPro rest, HasChannel m.2) ↔
      (HasChannel out ∨ ∃ d ∈ rest.takeWhile fun d => d.sendParameters = lastPro,
        d.indexToSend = true ∧ d.bits ≠ []) ∧ LaterGroups lastPro rest := by
  induction rest generalizing out lastPro with
  | nil => simp [sendChannels, LaterGroups]
  | cons c rest ih =>
    have hentry : ∀ before : List Entry, ∀ pro, (before ++ [entryOf c] = [] →
        ∀ c ∈ rest.head?, pro = c.sendParameters) := fun before pro hnil =>
      absurd hnil (by simp)
    rw [LaterGroups]
    by_cases heq : lastPro = c.sendParameters
    · rw [sendChannels_of_eq heq, ih (hentry out lastPro), hasChannel_concat_iff, heq,
        takeWhile_of_eq rfl, or_assoc, List.exists_mem_cons_iff]
      refine and_congr_right fun _ => (and_iff_right fun hne => absurd rfl hne).symm
    · have hout : out ≠ [] := fun hnil => heq (hstart hnil c rfl)
      rw [sendChannels_of_ne hout heq, List.forall_mem_cons, hasChannel_append_replicate,
        takeWhile_of_ne fun h => heq h.symm]
      have hfirst : (HasChannel out ∨ ∃ d ∈ ([] : List Channel),
          d.indexToSend = true ∧ d.bits ≠ []) ↔ HasChannel out :=
        or_iff_left fun ⟨d, hd, _⟩ => List.not_mem_nil hd
      rw [hfirst]
      refine and_congr_right fun _ => ?_
      by_cases hany : ((c :: rest).any fun c => decide (0 < c.bits.length)) = true
      · have hbits := any_bits_iff.mp hany
        rw [if_pos hany, ih (hentry _ _), hasChannel_concat_iff,
          or_iff_right (not_hasChannel_replicate _), GroupHasData,
          takeWhile_of_eq rfl]
        exact and_congr_left fun _ => ⟨fun h _ _ => (List.exists_mem_cons_iff _ _ _).mpr h,
          fun h => (List.exists_mem_cons_iff _ _ _).mp (h heq hbits)⟩
      · have hnone := mt any_bits_iff.mpr hany
        have hrest : ¬∃ d ∈ rest, d.bits ≠ [] := fun ⟨d, hd, hne⟩ =>
          hnone ⟨d, List.mem_cons_of_mem _ hd, hne⟩
        rw [if_neg hany]
        exact iff_of_true (fun _ hm => absurd hm List.not_mem_nil)
          ⟨fun _ hsome => absurd hsome hnone, laterGroups_of_no_bits hrest⟩

/-! ### All messages -/

/-- The messages tell of each channel that is to be sent once, with its bits and by its parameters,
and of no other, and there is none that tells of no channel. -/
def Delivered (h : Header) (channels : List Channel) (messages : List Message) : Prop :=
  ∃ read : List (PRO × List Entry),
    List.Forall₂ (fun m r => r.1 = m.sendParameters ∧ r.2.length = channels.length ∧
      Presents h m.data r.2) messages read ∧
    (∀ z, read.filterMap (tells z) = ((channels[z]?).bind toTell).toList) ∧
    ∀ r ∈ read, HasChannel r.2

theorem read_sendSerialize (h : Header) {channels : List Channel} {read : List (PRO × List Entry)} :
    List.Forall₂ (fun m r => r.1 = m.sendParameters ∧ r.2.length = channels.length ∧
      Presents h m.data r.2) (sendSerialize h channels) read ↔ read = sent channels := by
  have hsent : ∀ m ∈ sent channels, m.2.length = channels.length ∧
      ∀ bits, some bits ∈ m.2 → bits.length < 2 ^ 32 := by
    intro m hm
    cases channels with
    | nil => exact absurd hm List.not_mem_nil
    | cons c rest =>
      rw [sent] at hm
      split at hm
      · exact absurd hm List.not_mem_nil
      · refine ⟨?_, bits_lt_of_mem_sendChannels (fun _ hmem => absurd hmem List.not_mem_nil) hm⟩
        rw [length_of_mem_sendChannels hm, List.length_nil, Nat.zero_add]
  rw [sendSerialize, List.forall₂_map_left_iff]
  generalize sent channels = messages at hsent
  induction messages generalizing read with
  | nil => exact List.forall₂_nil_left_iff
  | cons m messages ih =>
    obtain ⟨hlength, hbits⟩ := hsent m List.mem_cons_self
    have hpresents := presents_streamOf h hbits
    rw [List.forall₂_cons_left_iff]
    constructor
    · rintro ⟨r, rest, ⟨hpro, hlength', hpresents'⟩, hrest, rfl⟩
      rw [(ih fun m hm => hsent m (List.mem_cons_of_mem _ hm)).mp hrest]
      congr 1
      exact Prod.ext hpro (presents_unique hpresents' hpresents (hlength'.trans hlength.symm))
    · rintro rfl
      exact ⟨m, messages, ⟨rfl, hlength, hpresents⟩,
        (ih fun m hm => hsent m (List.mem_cons_of_mem _ hm)).mpr rfl, rfl⟩

theorem filterMap_tells_sendChannels (c : Channel) (rest : List Channel) (z : ℕ) :
    (sendChannels [] c.sendParameters (c :: rest)).filterMap (tells z) =
      (((c :: rest)[z]?).bind toTell).toList := by
  rw [filterMap_tells fun _ d hd => by cases hd; rfl]
  exact congrArg Option.toList (if_neg (Nat.not_lt_zero z))

theorem toTell_eq_none_iff : toTell c = none ↔ (c.indexToSend = true → c.bits = []) := by
  rw [toTell]
  split
  · next hboth => exact iff_of_false nofun fun himp => hboth.2 (himp hboth.1)
  · next hnot => exact iff_of_true rfl fun hindex => by_contra fun hne => hnot ⟨hindex, hne⟩

theorem forall_toTell_eq_none_iff {channels : List Channel} :
    (∀ z : ℕ, [] = ((channels[z]?).bind toTell).toList) ↔
      ∀ c ∈ channels, c.indexToSend = true → c.bits = [] := by
  constructor
  · intro h c hc
    obtain ⟨z, hz⟩ := List.mem_iff_getElem?.mp hc
    have htell := h z
    rw [hz, Option.bind_some] at htell
    exact toTell_eq_none_iff.mp (Option.toList_eq_nil_iff.mp htell.symm)
  · intro h z
    cases hz : channels[z]? with
    | none => rfl
    | some c =>
      rw [Option.bind_some, toTell_eq_none_iff.mpr (h c (List.mem_of_getElem? hz))]
      rfl

theorem sum_of_nothing {channels : List Channel}
    (h : ∀ c ∈ channels, c.indexToSend = true → c.bits = []) : sum channels = 0 := by
  have hzero : ∀ c ∈ channels, (if c.indexToSend then c.bits.length else 0) = 0 := by
    intro c hc
    split
    · next hindex => rw [h c hc hindex, List.length_nil]
    · rfl
  rw [sum, List.map_congr_left hzero]
  simp

/-- All channels with bits and a flag are delivered, each by one message, and no message is without
a channel, if and only if none is to be sent, or the sum of their bits does not wrap to 0 and the
groups have data. -/
theorem delivered_iff (h : Header) (channels : List Channel) :
    Delivered h channels (sendSerialize h channels) ↔
      (∀ c ∈ channels, c.indexToSend = true → c.bits = []) ∨
        sum channels ≠ 0 ∧ GroupsHaveData channels := by
  have hread : Delivered h channels (sendSerialize h channels) ↔
      (∀ z, (sent channels).filterMap (tells z) = ((channels[z]?).bind toTell).toList) ∧
        ∀ r ∈ sent channels, HasChannel r.2 := by
    constructor
    · rintro ⟨read, hread, hrest⟩
      rwa [(read_sendSerialize h).mp hread] at hrest
    · exact fun hrest => ⟨sent channels, (read_sendSerialize h).mpr rfl, hrest⟩
  rw [hread]
  cases channels with
  | nil => exact iff_of_true ⟨fun _ => rfl, nofun⟩ (.inl nofun)
  | cons c rest =>
    rw [sent]
    by_cases hsum : sum (c :: rest) = 0
    · rw [if_pos hsum, or_iff_left fun hboth => hboth.1 hsum, ← forall_toTell_eq_none_iff]
      exact and_iff_left nofun
    · have hstart : ([] : List Entry) = [] →
          ∀ d ∈ (c :: rest).head?, c.sendParameters = d.sendParameters := by
        rintro - d ⟨⟩
        rfl
      have hsome := mt sum_of_nothing hsum
      rw [if_neg hsum, or_iff_right hsome, and_iff_right hsum, groupsHaveData_cons_iff,
        and_iff_right (filterMap_tells_sendChannels c rest), hasChannel_sendChannels_iff hstart,
        LaterGroups, GroupHasData, or_iff_right fun ⟨bits, hmem⟩ => List.not_mem_nil hmem]
      exact and_congr_right fun _ => and_iff_right fun hne => absurd rfl hne

/-- The first channel has no data and other parameters than the second one: it is sent by itself. -/
theorem first_message_without_channel : ¬ ∀ h channels,
    Delivered h channels (sendSerialize h channels) := by
  intro hall
  obtain ⟨read, hread, -, hchannel⟩ := hall ⟨0, 0, 1⟩
    [⟨true, [], ⟨.high, .reliable, 0, 0⟩, by decide⟩,
      ⟨true, [true], ⟨.low, .reliable, 0, 0⟩, by decide⟩]
  rw [(read_sendSerialize _).mp hread] at hchannel
  obtain ⟨bits, hmem⟩ := hchannel (⟨.high, .reliable, 0, 0⟩, [none, none]) (by decide)
  simp at hmem

end SerializationChannels

end SLikeNet
