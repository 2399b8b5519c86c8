import SLikeNet.OrderedDelivery
import SLikeNet.ReceiveLoop
import SLikeNet.SplitRoundTrip

/-! From the messages that one system sends reliably to those that the other one gives to its user,
over a network that loses, repeats and reorders their pieces. -/

namespace SLikeNet

open SplitPacketChannelList TransmittedMessage

/-- Messages that are sent whole, and messages that are sent in pieces: how their pieces are read by
the other system, which numbers they have, and which messages are sent on each ordering channel, in
the order of the calls of `Send`. -/
structure ReliableTransfer (ι κ : Type*) where
  whole : ι → TransmittedMessage
  receivedWhole : ι → TransmittedMessage
  timeWhole : ι → ℕ
  traffic : Traffic κ
  number : ι ⊕ κ × ℕ → ℕ
  sends : ℕ → List TransmissionHeader
  order : ℕ → List (ι ⊕ κ)
  stamp : ι ⊕ κ → SentMessage

namespace ReliableTransfer

variable {ι κ : Type*}

section Pieces

variable (T : ReliableTransfer ι κ)

/-- The header of a message before it is split. -/
def header : ι ⊕ κ → TransmissionHeader
  | .inl i => (T.whole i).toTransmissionHeader
  | .inr k => (T.traffic.messages k).packet.toTransmissionHeader

def data : ι ⊕ κ → List UInt8
  | .inl i => (T.whole i).payload
  | .inr k => (T.traffic.messages k).payload

/-- The message that a piece belongs to. -/
def message : ι ⊕ κ × ℕ → ι ⊕ κ
  | .inl i => .inl i
  | .inr a => .inr a.1

def IsPiece : ι ⊕ κ × ℕ → Prop
  | .inl _ => True
  | .inr a => a.2 < (T.traffic.messages a.1).splitPacketCount

def received : ι ⊕ κ × ℕ → TransmittedMessage
  | .inl i => T.receivedWhole i
  | .inr a => T.traffic.received a

def time : ι ⊕ κ × ℕ → ℕ
  | .inl i => T.timeWhole i
  | .inr a => T.traffic.time a

/-- All pieces of the message are among the arrivals. -/
def Arrived (arrivals : List (ι ⊕ κ × ℕ)) (k : ι ⊕ κ) : Prop :=
  ∀ a, T.IsPiece a → message a = k → a ∈ arrivals

/-- The receiver after pieces have arrived, each possibly more than once. -/
def run (splitMessageProgressInterval : ℕ) (arrivals : List (ι ⊕ κ × ℕ)) : Option ReceivingLayer :=
  arrivals.foldlM (fun s a => s.receive (T.received a) (T.time a))
    (.initial splitMessageProgressInterval)

/-- What a sender sees to: the receiver reads what was sent, the messages are reliable, pieces have
different numbers, and the messages of a channel are stamped in their order. -/
structure Conforming : Prop where
  readAs : ∀ i, TransmittedMessage.ReadAs (T.whole i) (T.receivedWhole i)
  whole_splitPacketCount : ∀ i, (T.whole i).splitPacketCount = 0
  isReliable : ∀ k, (T.header k).reliability.isReliable = true
  number_injective : ∀ a b, T.IsPiece a → T.IsPiece b → T.number a = T.number b → a = b
  number_eq : ∀ a, T.IsPiece a → (T.received a).reliableMessageNumber = .ofNat (T.number a)
  order_eq : ∀ j, (T.order j).map T.stamp = sentMessages j (T.sends j)
  order_nodup : ∀ j, (T.order j).Nodup
  mem_order : ∀ j k, k ∈ T.order j ↔
    hasChannel (T.header k).reliability = true ∧ (T.header k).orderingChannel = j
  channel_lt : ∀ k, hasChannel (T.header k).reliability = true → (T.header k).orderingChannel < 32
  stamp_eq : ∀ k, hasChannel (T.header k).reliability = true →
    (T.stamp k).header.reliability = (T.header k).reliability.onWire ∧
      (T.stamp k).header.orderingIndex = (T.header k).orderingIndex ∧
      ((T.header k).reliability.isSequenced = true →
        (T.stamp k).header.sequencingIndex = (T.header k).sequencingIndex)

/-- The numbers stay in the window of the receiver, and the indices of the channels do not wrap. -/
structure Bounded (arrivals : List (ι ⊕ κ × ℕ)) : Prop where
  window : Transition.Along Reception.arrive Reception.InWindow .initial (arrivals.map T.number)
  few : ∀ j, ((sentMessages j (T.sends j)).filter fun m => !m.isSequenced).length < 2 ^ 23
  sequence_lt : ∀ j, ∀ m ∈ sentMessages j (T.sends j), m.isSequenced = true →
    m.sequence < 2 ^ 20 - 1

/-- What the user of the receiver gets: on every channel the longest start of the ordered messages
that has arrived, in the order in which they were sent; of the other messages each that has arrived;
and none of them twice. -/
structure Delivers (arrivals : List (ι ⊕ κ × ℕ)) (outputQueue : List TransmittedMessage) :
    Prop where
  ordered : ∀ j, ∃ n ≤ ((T.order j).filter fun k => (T.header k).reliability.isOrdered).length,
    let sent := (T.order j).filter fun k => (T.header k).reliability.isOrdered
    ((outputQueue.filter (OrderingChannels.isOn j)).filter
        fun p => !p.reliability.isSequenced).map TransmittedMessage.data =
      (sent.take n).map T.data ∧
    (∀ k ∈ sent.take n, T.Arrived arrivals k) ∧ ∀ k, sent[n]? = some k → ¬T.Arrived arrivals k
  onChannel : ∀ j, ∃ ids : List (ι ⊕ κ), ids.Nodup ∧ (∀ k ∈ ids, T.Arrived arrivals k) ∧
    (outputQueue.filter (OrderingChannels.isOn j)).map TransmittedMessage.data = ids.map T.data
  unordered : ∃ ids : List (ι ⊕ κ), ids.Nodup ∧
    (∀ k, k ∈ ids ↔ hasChannel (T.header k).reliability = false ∧ T.Arrived arrivals k) ∧
    (outputQueue.filter fun p => !p.reliability.isOnChannel).map TransmittedMessage.data =
      ids.map T.data

end Pieces

variable {T : ReliableTransfer ι κ}

/-! ### The pieces as they are read -/

theorem isOnChannel_onWire (r : PacketReliability) : r.onWire.isOnChannel = hasChannel r := by
  cases r <;> rfl

/-- A packet that the user gets stands for a message. -/
structure Delivered (T : ReliableTransfer ι κ) where
  id : ι ⊕ κ
  packet : TransmittedMessage
  data_eq : packet.data = T.data id
  reliability_eq : packet.reliability = (T.header id).reliability.onWire
  channel_eq : hasChannel (T.header id).reliability = true →
    packet.orderingChannel = (T.header id).orderingChannel ∧
      packet.orderingIndex = (T.header id).orderingIndex
  sequencingIndex_eq : (T.header id).reliability.isSequenced = true →
    packet.sequencingIndex = (T.header id).sequencingIndex

/-- A message that is sent whole, as the receiver gives it to its user. -/
def Conforming.deliveredWhole (h : T.Conforming) (i : ι) : Delivered T where
  id := .inl i
  packet := T.receivedWhole i
  data_eq := (h.readAs i).data_eq
  reliability_eq := (h.readAs i).reliability_eq
  channel_eq hc := ⟨((h.readAs i).channel_eq hc).2, ((h.readAs i).channel_eq hc).1⟩
  sequencingIndex_eq := (h.readAs i).sequencingIndex_eq

/-- A message that has been put together. -/
def deliveredSplit {k : κ} {first : Fragment} {p : TransmittedMessage}
    (h : (T.traffic.messages k).Rebuilt first p) : Delivered T where
  id := .inr k
  packet := p
  data_eq := h.data_eq
  reliability_eq := h.reliability_eq
  channel_eq := h.channel_eq
  sequencingIndex_eq := h.sequencingIndex_eq

/-! ### First occurrences -/

section Firsts

variable {α : Type*} [DecidableEq α]

end Firsts

/-! ### Pieces that come to the receiver for the first time -/

/-- The pieces of split messages among them. -/
def splitPieces (accepted : List (ι ⊕ κ × ℕ)) : List (κ × ℕ) := accepted.filterMap Sum.getRight?

theorem mem_splitPieces {accepted : List (ι ⊕ κ × ℕ)} {a : κ × ℕ} :
    a ∈ splitPieces accepted ↔ .inr a ∈ accepted := by
  rw [splitPieces, List.mem_filterMap]
  constructor
  · rintro ⟨b, hb, hba⟩
    rwa [Sum.getRight?_eq_some_iff.mp hba] at hb
  · exact fun ha => ⟨.inr a, ha, rfl⟩

variable [DecidableEq ι] [DecidableEq κ] {accepted : List (ι ⊕ κ × ℕ)} {s : ReceivingLayer}
  {done : List (Delivered T)}

omit [DecidableEq ι] [DecidableEq κ] in
theorem arrived_whole {i : ι} : T.Arrived accepted (.inl i) ↔ .inl i ∈ accepted := by
  refine ⟨fun h => h (.inl i) trivial rfl, fun h a _ ha => ?_⟩
  cases a with
  | inl j => exact (Sum.inl.inj ha) ▸ h
  | inr a => cases ha

omit [DecidableEq ι] [DecidableEq κ] in
theorem arrived_split {k : κ} :
    T.Arrived accepted (.inr k) ↔ T.traffic.Complete (splitPieces accepted) k := by
  constructor
  · exact fun h index hindex => mem_splitPieces.mpr (h (.inr (k, index)) hindex rfl)
  · rintro h (i | ⟨k', index⟩) hpiece ha
    · cases ha
    · obtain rfl : k' = k := Sum.inr.inj ha
      exact mem_splitPieces.mp (h index hpiece)

/-- What has become of the pieces that were accepted: the messages whose pieces are all there have
gone through the ordering channels, each once. -/
structure Progress (T : ReliableTransfer ι κ) (accepted : List (ι ⊕ κ × ℕ))
    (done : List (Delivered T)) (s : ReceivingLayer) : Prop where
  isPiece : ∀ a ∈ accepted, T.IsPiece a
  nodup : accepted.Nodup
  pending : T.traffic.Pending (splitPieces accepted) s.splitPacketChannelList
  done_nodup : (done.map Delivered.id).Nodup
  mem_done : ∀ k, k ∈ done.map Delivered.id ↔ T.Arrived accepted k
  orderingChannels : s.orderingChannels = .run (done.map Delivered.packet)

omit [DecidableEq ι] [DecidableEq κ] in
theorem arrived_other {a : ι ⊕ κ × ℕ} {k : ι ⊕ κ} (hk : k ≠ message a) :
    T.Arrived (accepted ++ [a]) k ↔ T.Arrived accepted k := by
  refine ⟨fun h b hb hbk => ?_, fun h b hb hbk => List.mem_append_left _ (h b hb hbk)⟩
  obtain hmem | hmem := List.mem_append.mp (h b hb hbk)
  · exact hmem
  · exact absurd ((List.mem_singleton.mp hmem ▸ hbk).symm) hk

/-- The messages that are complete after another piece, of which the last one is new. -/
theorem Progress.mem_done_concat (h : Progress T accepted done s) {a : ι ⊕ κ × ℕ}
    (ha : a ∉ accepted) (hpiece : T.IsPiece a) {d : Delivered T} (hd : d.id = message a)
    (harrived : T.Arrived (accepted ++ [a]) (message a)) :
    ((done ++ [d]).map Delivered.id).Nodup ∧
      ∀ k, k ∈ (done ++ [d]).map Delivered.id ↔ T.Arrived (accepted ++ [a]) k := by
  have hnew : message a ∉ done.map Delivered.id := fun hmem =>
    ha ((h.mem_done _).mp hmem a hpiece rfl)
  rw [List.map_append, List.map_singleton, hd]
  refine ⟨List.nodup_append.mpr ⟨h.done_nodup, List.nodup_singleton _, ?_⟩, fun k => ?_⟩
  · rintro k hk k' hk' rfl
    exact hnew (List.mem_singleton.mp hk' ▸ hk)
  · rw [List.mem_append, List.mem_singleton]
    by_cases hk : k = message a
    · rw [hk]
      exact iff_of_true (.inr rfl) harrived
    · rw [arrived_other hk, ← h.mem_done]
      exact or_iff_left hk

/-- A piece that has not come before is taken in. -/
theorem Progress.reassemble (h : Progress T accepted done s) (hT : T.Conforming)
    {a : ι ⊕ κ × ℕ} (ha : a ∉ accepted) (hpiece : T.IsPiece a) :
    ∃ s' done', s.reassemble (T.received a) (T.time a) = some s' ∧
      s'.receivedPackets = s.receivedPackets ∧ Progress T (accepted ++ [a]) done' s' := by
  have hpieces : ∀ b ∈ accepted ++ [a], T.IsPiece b := by
    intro b hb
    obtain hb | hb := List.mem_append.mp hb
    · exact h.isPiece b hb
    · exact List.mem_singleton.mp hb ▸ hpiece
  have hnodup : (accepted ++ [a]).Nodup := by
    refine List.nodup_append.mpr ⟨h.nodup, List.nodup_singleton a, ?_⟩
    rintro b hb b' hb' rfl
    exact ha (List.mem_singleton.mp hb' ▸ hb)
  rw [ReceivingLayer.reassemble]
  cases a with
  | inl i =>
    have hcount : ¬(T.received (.inl i)).splitPacketCount > 0 := by
      show ¬(T.receivedWhole i).splitPacketCount > 0
      rw [(hT.readAs i).splitPacketCount_eq, hT.whole_splitPacketCount]
      exact Nat.lt_irrefl 0
    have hsplit : splitPieces (accepted ++ [(.inl i : ι ⊕ κ × ℕ)]) = splitPieces accepted := by
      rw [splitPieces, List.filterMap_append]
      exact List.append_nil _
    obtain ⟨hdone, hmem⟩ := h.mem_done_concat ha hpiece (d := hT.deliveredWhole i) rfl
      (arrived_whole.mpr (List.mem_append_right _ (List.mem_singleton_self _)))
    rw [if_neg hcount]
    refine ⟨_, done ++ [hT.deliveredWhole i], rfl, rfl, hpieces, hnodup, ?_, hdone, hmem, ?_⟩
    · rw [hsplit]
      exact h.pending
    · rw [List.map_append, List.map_singleton, OrderingChannels.run_concat, ← h.orderingChannels]
      rfl
  | inr a =>
    have hcount : (T.received (.inr a)).splitPacketCount > 0 := by
      show (T.traffic.received a).splitPacketCount > 0
      rw [(T.traffic.arrives a.1 a.2 hpiece).split.1]
      exact Nat.succ_pos _
    have hsplit : splitPieces (accepted ++ [(.inr a : ι ⊕ κ × ℕ)]) =
        splitPieces accepted ++ [a] := by
      rw [splitPieces, List.filterMap_append]
      rfl
    have haccepted : T.traffic.Accepted (splitPieces accepted ++ [a]) := by
      rw [← hsplit]
      refine ⟨hnodup.filterMap fun b b' c hb hb' => ?_, fun b hb => hpieces _ (mem_splitPieces.mp hb)⟩
      rw [Option.mem_def, Sum.getRight?_eq_some_iff] at hb hb'
      exact hb.trans hb'.symm
    obtain ⟨r, t, hreceive, hpending, hbuilt, hwaits⟩ := h.pending.receive haccepted
    rw [← hsplit] at hpending hbuilt hwaits
    have hreceive' : s.splitPacketChannelList.receive (T.received (.inr a)) (T.time (.inr a)) =
        some (r, t) := hreceive
    rw [if_pos hcount, hreceive']
    by_cases hall : T.traffic.Complete (splitPieces (accepted ++ [(.inr a : ι ⊕ κ × ℕ)])) a.1
    · obtain ⟨p, rfl, hrebuilt⟩ := hbuilt hall
      obtain ⟨hdone, hmem⟩ := h.mem_done_concat ha hpiece (d := deliveredSplit hrebuilt) rfl
        (arrived_split.mpr hall)
      refine ⟨_, done ++ [deliveredSplit hrebuilt], rfl, rfl, hpieces, hnodup, hpending, hdone,
        hmem, ?_⟩
      rw [List.map_append, List.map_singleton, OrderingChannels.run_concat, ← h.orderingChannels]
      rfl
    · obtain rfl := hwaits hall
      refine ⟨_, done, rfl, rfl, hpieces, hnodup, hpending, h.done_nodup, fun k => ?_,
        h.orderingChannels⟩
      by_cases hk : k = message (.inr a)
      · rw [hk]
        refine iff_of_false (fun hmem => ha ?_) fun harrived => hall (arrived_split.mp harrived)
        exact (h.mem_done _).mp hmem _ hpiece rfl
      · rw [arrived_other hk]
        exact h.mem_done k

/-! ### Arrivals -/

/-- A list whose elements are numbered from zero starts with those that have the first numbers. -/
theorem eq_take_of_map_eq_range {α : Type*} {l ms : List α} {f : α → ℕ} {k : ℕ}
    (hl : l.map f = List.range l.length) (hms : ∀ m ∈ ms, m ∈ l) (hk : ms.map f = List.range k)
    (hle : k ≤ l.length) : ms = l.take k := by
  have hinj := List.inj_on_of_nodup_map (hl ▸ List.nodup_range)
  have hlen : ms.length = k := by simpa using congrArg List.length hk
  refine List.ext_getElem (by simp [hlen, hle]) fun i h1 h2 => ?_
  have hi : i < l.length := by omega
  refine hinj (hms _ (List.getElem_mem h1)) (List.mem_of_mem_take (List.getElem_mem h2)) ?_
  have e1 : (ms.map f)[i]? = some i := by simp [hk, hlen ▸ h1]
  have e2 : (l.map f)[i]? = some i := by simp [hl, hi]
  rw [List.getElem?_map, List.getElem?_eq_getElem h1] at e1
  rw [List.getElem?_map, List.getElem?_eq_getElem hi] at e2
  rw [List.getElem_take]
  exact (Option.some.inj e1).trans (Option.some.inj e2).symm

/-- The messages of the user that are on a channel. -/
abbrev OnChannel (T : ReliableTransfer ι κ) (j : ℕ) : Type _ :=
  { d : Delivered T // OrderingChannels.isOn j d.packet = true }

variable {j : ℕ}

instance : HasTransmissionHeader (OnChannel T j) := ⟨fun d => d.1.packet.toTransmissionHeader⟩

omit [DecidableEq ι] [DecidableEq κ] in
theorem isOn_iff (d : Delivered T) : OrderingChannels.isOn j d.packet = true ↔
    hasChannel (T.header d.id).reliability = true ∧ (T.header d.id).orderingChannel = j := by
  rw [OrderingChannels.isOn, Bool.and_eq_true, decide_eq_true_eq, d.reliability_eq,
    isOnChannel_onWire]
  exact and_congr_right fun hc => by rw [(d.channel_eq hc).1]

omit [DecidableEq ι] [DecidableEq κ] in
theorem Conforming.sameOrdering (hT : T.Conforming) (d : OnChannel T j) :
    SameOrdering (HasTransmissionHeader.header d) (T.stamp d.1.id).header := by
  have hc := ((isOn_iff d.1).mp d.2).1
  obtain ⟨hreliability, hordering, hsequencing⟩ := hT.stamp_eq _ hc
  refine ⟨hreliability.trans d.1.reliability_eq.symm,
    hordering.trans (d.1.channel_eq hc).2.symm, fun hne => ?_⟩
  have hseq : (T.header d.1.id).reliability.isSequenced = true := by
    have hne' : d.1.packet.reliability ≠ .reliableOrdered := hne
    rw [d.1.reliability_eq] at hne'
    revert hne' hc
    generalize (T.header d.1.id).reliability = r
    cases r <;> simp [hasChannel, PacketReliability.isSequenced, PacketReliability.isOrdered,
      PacketReliability.onWire]
  exact (hsequencing hseq).trans (d.1.sequencingIndex_eq hseq).symm

/-- The messages on a channel, in the order in which they became complete. -/
def onChannel (done : List (Delivered T)) (j : ℕ) : List (OnChannel T j) :=
  (done.filter fun d => OrderingChannels.isOn j d.packet).attach.map fun d =>
    ⟨d.1, List.of_mem_filter (p := fun d : Delivered T => OrderingChannels.isOn j d.packet) d.2⟩

omit [DecidableEq ι] [DecidableEq κ] in
theorem map_onChannel {α : Type*} (done : List (Delivered T)) (f : Delivered T → α) :
    (onChannel done j).map (fun d => f d.1) =
      (done.filter fun d => OrderingChannels.isOn j d.packet).map f := by
  rw [onChannel, List.map_map, Function.comp_def]
  exact List.attach_map_val

omit [DecidableEq ι] [DecidableEq κ] in
theorem packets_onChannel (done : List (Delivered T)) :
    (done.map Delivered.packet).filter (OrderingChannels.isOn j) =
      (onChannel done j).map fun d => d.1.packet := by
  rw [map_onChannel done Delivered.packet, List.filter_map]
  rfl

omit [DecidableEq ι] [DecidableEq κ] in
theorem receiver_run (stamps : List SentMessage) :
    stamps.foldl Receiver.arrive .initial =
      ⟨(OrderingChannel.run stamps).1, (OrderingChannel.run stamps).2⟩ := by
  induction stamps using List.reverseRecOn with
  | nil => rfl
  | append_singleton stamps m ih =>
    rw [List.foldl_append, ih, OrderingChannel.run_concat]
    rfl

/-- The channel with unbounded numbers, after messages that were sent on it have come. -/
theorem orderedInv_run {sends : List TransmissionHeader} {stamps : List SentMessage}
    (hsub : stamps.Subperm (sentMessages j sends))
    (hfew : ((sentMessages j sends).filter fun m => !m.isSequenced).length < 2 ^ 23)
    (hsequence : ∀ m ∈ sentMessages j sends, m.isSequenced = true → m.sequence < 2 ^ 20 - 1) :
    ∃ u, OrderedInv stamps u ∧ u.outputQueue = (OrderingChannel.run stamps).2 := by
  have hpre : ∀ pre m post, stamps = pre ++ m :: post →
      (pre ++ [m]).Subperm (sentMessages j sends) := by
    rintro pre m post rfl
    refine List.Sublist.subperm ?_ |>.trans hsub
    simp
  have hinv := Transition.run_prefix OrderedInv orderedInv_initial fun pre m post heq h =>
    h.arrive (hpre pre m post heq) hsequence
  have hfaithful : Transition.Along UnboundedReceiver.arrive (fun u m => Faithful u.channel m)
      .initial stamps := by
    intro pre m post heq
    have hle := (hinv pre (m :: post) heq).next_le
      ((List.sublist_append_left pre [m]).subperm.trans (hpre pre m post heq))
    refine (hinv pre (m :: post) heq).faithful (hpre pre m post heq) hsequence
      (fun q hq => ?_) (by omega)
    have := (sentMessages_ordered j sends).2 q hq
    omega
  have hrun := hfaithful.simulation UnboundedReceiver.toReceiver fun u m hf =>
    UnboundedReceiver.arrive_toReceiver hf
  rw [UnboundedReceiver.initial_toReceiver, receiver_run] at hrun
  exact ⟨_, hinv stamps [] (by simp), (congrArg Receiver.outputQueue hrun).symm⟩

/-! ### What the user gets -/

omit [DecidableEq ι] [DecidableEq κ] in
theorem Conforming.isSequenced_stamp (hT : T.Conforming) {k : ι ⊕ κ} (hk : k ∈ T.order j) :
    (T.stamp k).isSequenced = !(T.header k).reliability.isOrdered := by
  have hc := ((hT.mem_order j k).mp hk).1
  rw [SentMessage.isSequenced, (hT.stamp_eq k hc).1]
  revert hc
  generalize (T.header k).reliability = r
  cases r <;> decide

omit [DecidableEq ι] [DecidableEq κ] in
theorem Conforming.order_numbers (hT : T.Conforming) (j : ℕ) :
    let sent := (T.order j).filter fun k => (T.header k).reliability.isOrdered
    sent.map T.stamp = (sentMessages j (T.sends j)).filter (fun m => !m.isSequenced) ∧
      sent.map (fun k => (T.stamp k).order) = List.range sent.length := by
  have hstamps : ((T.order j).filter fun k => (T.header k).reliability.isOrdered).map T.stamp =
      (sentMessages j (T.sends j)).filter fun m => !m.isSequenced := by
    rw [← hT.order_eq j, List.filter_map]
    congr 1
    refine List.filter_congr fun k hk => ?_
    rw [Function.comp_apply, hT.isSequenced_stamp hk, Bool.not_not]
  refine ⟨hstamps, ?_⟩
  have hnumbers := (sentMessages_ordered j (T.sends j)).1
  rw [← hstamps, List.map_map, List.length_map] at hnumbers
  exact hnumbers

omit [DecidableEq ι] [DecidableEq κ] in
theorem mem_onChannel {accepted : List (ι ⊕ κ × ℕ)} {done : List (Delivered T)}
    (hT : T.Conforming) (hmem : ∀ k, k ∈ done.map Delivered.id ↔ T.Arrived accepted k) {k : ι ⊕ κ} :
    k ∈ (onChannel done j).map (fun d => d.1.id) ↔ k ∈ T.order j ∧ T.Arrived accepted k := by
  rw [map_onChannel done Delivered.id, List.mem_map, ← hmem, List.mem_map, hT.mem_order]
  constructor
  · rintro ⟨d, hd, rfl⟩
    obtain ⟨hd, hon⟩ := List.mem_filter.mp hd
    exact ⟨(isOn_iff d).mp hon, d, hd, rfl⟩
  · rintro ⟨hon, d, hd, rfl⟩
    exact ⟨d, List.mem_filter.mpr ⟨hd, (isOn_iff d).mpr hon⟩, rfl⟩

omit [DecidableEq ι] in
theorem Progress.channel (h : Progress T accepted done s) (hT : T.Conforming)
    {arrivals : List (ι ⊕ κ × ℕ)} (hbounded : T.Bounded arrivals) (j : ℕ) :
    ∃ out : List (OnChannel T j),
      s.orderingChannels.outputQueue.filter (OrderingChannels.isOn j) =
        out.map (fun d => d.1.packet) ∧
      (out.map fun d => d.1.id).Nodup ∧
      (∀ d ∈ out, d.1.id ∈ T.order j ∧ T.Arrived accepted d.1.id) ∧
      ∃ n ≤ ((T.order j).filter fun k => (T.header k).reliability.isOrdered).length,
        (out.filter fun d => !d.1.packet.reliability.isSequenced).map (fun d => d.1.id) =
          ((T.order j).filter fun k => (T.header k).reliability.isOrdered).take n ∧
        ∀ k, ((T.order j).filter fun k => (T.header k).reliability.isOrdered)[n]? = some k →
          ¬T.Arrived accepted k := by
  have hids := fun k => @mem_onChannel ι κ T j accepted done hT h.mem_done k
  have hnodup : ((onChannel done j).map fun d => d.1.id).Nodup := by
    rw [map_onChannel done Delivered.id]
    exact h.done_nodup.sublist (List.filter_sublist.map _)
  have hpackets := OrderingChannel.run_map (f := fun d : OnChannel T j => d.1.packet)
    (fun _ => ⟨rfl, rfl, fun _ => rfl⟩) (onChannel done j)
  have hstamps := OrderingChannel.run_map (f := fun d : OnChannel T j => T.stamp d.1.id)
    hT.sameOrdering (onChannel done j)
  have hqueue := congrArg Prod.snd ((OrderingChannels.run_spec (done.map Delivered.packet)).1 j)
  rw [← h.orderingChannels, packets_onChannel, hpackets] at hqueue
  have hout : ∀ d ∈ (OrderingChannel.run (onChannel done j)).2,
      d.1.id ∈ T.order j ∧ T.Arrived accepted d.1.id := fun d hd =>
    (hids _).mp (List.mem_map_of_mem (OrderingChannel.mem_run hd))
  have hsub : ((onChannel done j).map fun d => T.stamp d.1.id).Subperm
      (sentMessages j (T.sends j)) := by
    have hids' : ((onChannel done j).map fun d => d.1.id).Subperm (T.order j) :=
      hnodup.subperm fun k hk => ((hids k).mp hk).1
    obtain ⟨l, hperm, hsublist⟩ := hids'
    rw [← hT.order_eq j]
    refine ⟨l.map T.stamp, ?_, hsublist.map _⟩
    have := hperm.map T.stamp
    rwa [List.map_map] at this
  obtain ⟨u, hinv, hu⟩ := orderedInv_run hsub (hbounded.few j) (hbounded.sequence_lt j)
  rw [hstamps] at hu
  generalize (OrderingChannel.run (onChannel done j)).2 = out at hqueue hout hu
  have hsent := hT.order_numbers j
  have hle := hinv.next_le hsub
  rw [← hsent.1, List.length_map] at hle
  have hkind : ∀ d ∈ out, (T.stamp d.1.id).isSequenced = d.1.packet.reliability.isSequenced := by
    intro d hd
    have hc := ((isOn_iff d.1).mp d.2).1
    rw [SentMessage.isSequenced, (hT.stamp_eq _ hc).1, d.1.reliability_eq]
  have hcontiguous : ((out.filter fun d => !d.1.packet.reliability.isSequenced).map
      fun d => d.1.id).map (fun k => (T.stamp k).order) = List.range u.channel.next := by
    have hnumbers := hinv.contiguous
    rw [hu, List.filter_map, List.map_map] at hnumbers
    rw [← hnumbers, List.map_map]
    congr 1
    exact List.filter_congr fun d hd => by rw [Function.comp_apply, hkind d hd]
  refine ⟨out, hqueue, ?_, hout, u.channel.next, hle, ?_, fun k hk harrived => ?_⟩
  · have hdistinct : (out.map fun d => T.stamp d.1.id).Nodup := by
      have hsub' : u.outputQueue.Subperm (sentMessages j (T.sends j)) :=
        ((List.sublist_append_left _ _).subperm.trans hinv.subperm).trans hsub
      rw [hu] at hsub'
      refine (distinct_of_subperm hsub').imp fun {a b} hab => ?_
      rintro rfl
      exact hab ⟨rfl, rfl⟩
    have hmap := List.map_map (l := out) (f := fun d : OnChannel T j => d.1.id) (g := T.stamp)
    exact List.Nodup.of_map T.stamp (hmap ▸ hdistinct)
  · refine eq_take_of_map_eq_range hsent.2 (fun k hk => ?_) hcontiguous hle
    obtain ⟨d, hd, rfl⟩ := List.mem_map.mp hk
    obtain ⟨hd, hordered⟩ := List.mem_filter.mp hd
    rw [← hkind d hd, hT.isSequenced_stamp (hout d hd).1, Bool.not_not] at hordered
    exact List.mem_filter.mpr ⟨(hout d hd).1, hordered⟩
  · have hnumber := congrArg (fun l => l[u.channel.next]?) hsent.2
    have hlt : u.channel.next <
        ((T.order j).filter fun k => (T.header k).reliability.isOrdered).length :=
      (List.getElem?_eq_some_iff.mp hk).1
    rw [List.getElem?_map, hk, List.getElem?_range hlt, Option.map_some] at hnumber
    have hnumber := Option.some.inj hnumber
    obtain ⟨hmem, hordered⟩ := List.mem_filter.mp (List.mem_of_getElem? hk)
    have hstamp : T.stamp k ∈ (onChannel done j).map fun d => T.stamp d.1.id := by
      obtain ⟨d, hd, rfl⟩ := List.mem_map.mp ((hids k).mpr ⟨hmem, harrived⟩)
      exact List.mem_map_of_mem hd
    have hseq : (T.stamp k).isSequenced = false := by
      rw [hT.isSequenced_stamp hmem, hordered]
      rfl
    obtain hlt | hpending := hinv.kept _ hstamp hseq
    · omega
    · have := hinv.beyond _ hpending
      omega

end ReliableTransfer

end SLikeNet
