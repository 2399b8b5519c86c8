import SLikeNet.OrderingChannel
import SLikeNet.ReceivedPackets
import SLikeNet.SplitPacketSort

/-! The loop of `HandleSocketReceiveFromConnectedPlayer` over the messages of a datagram: duplicates
are refused, fragments are put together, and what is whole goes through its ordering channel. -/

namespace SLikeNet

instance : HasTransmissionHeader TransmittedMessage := ⟨TransmittedMessage.toTransmissionHeader⟩

/-- The types that `HandleSocketReceiveFromConnectedPlayer` puts on an ordering channel. -/
def PacketReliability.isOnChannel (r : PacketReliability) : Bool :=
  r == reliableSequenced || r == unreliableSequenced || r == reliableOrdered

/-- The ordering channels, and the queue behind them. -/
structure OrderingChannels where
  channel : ℕ → OrderingChannel TransmittedMessage
  outputQueue : List TransmittedMessage

namespace OrderingChannels

def initial : OrderingChannels := ⟨fun _ => OrderingChannel.initial, []⟩

/-- A message that is whole. -/
def handle (s : OrderingChannels) (internalPacket : TransmittedMessage) : OrderingChannels :=
  let handled := (s.channel internalPacket.orderingChannel).handle internalPacket
  { channel := Function.update s.channel internalPacket.orderingChannel handled.2
    outputQueue := s.outputQueue ++ handled.1.output }

end OrderingChannels

/-- What the loop reads and writes of a layer. Download progress is in the queue of
`splitPacketChannelList`. -/
structure ReceivingLayer where
  receivedPackets : ReceivedPackets
  splitPacketChannelList : SplitPacketChannelList
  orderingChannels : OrderingChannels

namespace ReceivingLayer

def initial (splitMessageProgressInterval : ℕ) : ReceivingLayer :=
  ⟨.initial, .initial splitMessageProgressInterval, .initial⟩

/-- A message that has not been refused, with the packet that is rebuilt where it was split. -/
def reassemble (s : ReceivingLayer) (internalPacket : TransmittedMessage) (timeRead : ℕ) :
    Option ReceivingLayer :=
  if internalPacket.splitPacketCount > 0 then
    match s.splitPacketChannelList.receive internalPacket timeRead with
    | none => none
    | some (none, splits) => some { s with splitPacketChannelList := splits }
    | some (some rebuilt, splits) =>
      some { s with
        splitPacketChannelList := splits
        orderingChannels := s.orderingChannels.handle rebuilt }
  else some { s with orderingChannels := s.orderingChannels.handle internalPacket }

/-- One turn of the loop. -/
def receive (s : ReceivingLayer) (internalPacket : TransmittedMessage) (timeRead : ℕ) :
    Option ReceivingLayer :=
  if internalPacket.reliability.isOnChannel = true ∧ internalPacket.orderingChannel ≥ 32 then some s
  else if internalPacket.reliability.readsNumber then
    let received := s.receivedPackets.receive internalPacket.reliableMessageNumber
    let s := { s with receivedPackets := received.2 }
    if received.1 then s.reassemble internalPacket timeRead else some s
  else s.reassemble internalPacket timeRead

end ReceivingLayer

/-! ### Channels of other messages -/

/-- The fields that decide what an ordering channel does with a message. -/
structure SameOrdering (h h' : TransmissionHeader) : Prop where
  reliability_eq : h'.reliability = h.reliability
  orderingIndex_eq : h'.orderingIndex = h.orderingIndex
  sequencingIndex_eq : h.reliability ≠ .reliableOrdered → h'.sequencingIndex = h.sequencingIndex

namespace Disposition

def map {P Q : Type*} (f : P → Q) : Disposition P → Disposition Q
  | returned packets => returned (packets.map f)
  | buffered => buffered
  | lateSequenced => lateSequenced
  | olderResend => olderResend

theorem output_map {P Q : Type*} (f : P → Q) (d : Disposition P) :
    (d.map f).output = d.output.map f := by
  cases d <;> rfl

end Disposition

namespace OrderingChannel

variable {P Q : Type*} [HasTransmissionHeader P] [HasTransmissionHeader Q]

/-- The same channel with other messages. -/
def map (f : P → Q) (c : OrderingChannel P) : OrderingChannel Q :=
  { orderedReadIndex := c.orderedReadIndex
    highestSequencedReadIndex := c.highestSequencedReadIndex
    orderingHeap := c.orderingHeap.map f
    heapIndexOffset := c.heapIndexOffset }

variable {f : P → Q}

theorem returnOffHeap_map (hf : ∀ p, SameOrdering (header p) (header (f p))) (fuel : ℕ)
    (c : OrderingChannel P) : returnOffHeap fuel (c.map f) =
      ((returnOffHeap fuel c).1.map f, (returnOffHeap fuel c).2.map f) := by
  induction fuel generalizing c with
  | zero => rfl
  | succ fuel ih =>
    have hpop : (c.map f).orderingHeap.pop 0 =
        (c.orderingHeap.pop 0).map fun r => (f r.1, r.2.map f) := c.orderingHeap.pop_map f 0
    have hpeek : (c.map f).orderingHeap.peek = c.orderingHeap.peek.map f := by
      show ((c.orderingHeap.heap.map (HeapNode.map f)).head?).map HeapNode.data = _
      rw [List.head?_map, Option.map_map, Heap.peek, Option.map_map]
      rfl
    rw [returnOffHeap, returnOffHeap, hpop, hpeek]
    cases c.orderingHeap.peek with
    | none => rfl
    | some head =>
      cases c.orderingHeap.pop 0 with
      | none => rfl
      | some popped =>
        dsimp only [Option.map_some]
        rw [(hf head).orderingIndex_eq, (hf popped.1).reliability_eq]
        have hread : (c.map f).orderedReadIndex = c.orderedReadIndex := rfl
        rw [hread]
        by_cases hnext : (header head).orderingIndex = c.orderedReadIndex
        · rw [if_pos hnext, if_pos hnext]
          by_cases hordered : (header popped.1).reliability = .reliableOrdered
          · rw [if_pos hordered, if_pos hordered]
            have hrest := ih { c with
              orderingHeap := popped.2
              orderedReadIndex := c.orderedReadIndex.succ }
            dsimp only
            change returnOffHeap fuel (OrderingChannel.map f _) = _ at hrest
            exact congrArg (fun r => (f popped.1 :: r.1, r.2)) hrest
          · rw [if_neg hordered, if_neg hordered, (hf popped.1).sequencingIndex_eq hordered]
            have hrest := ih { c with
              orderingHeap := popped.2
              highestSequencedReadIndex := (header popped.1).sequencingIndex }
            dsimp only
            change returnOffHeap fuel (OrderingChannel.map f _) = _ at hrest
            exact congrArg (fun r => (f popped.1 :: r.1, r.2)) hrest
        · rw [if_neg hnext, if_neg hnext]
          rfl

theorem heapWeight_map (hf : ∀ p, SameOrdering (header p) (header (f p))) (c : OrderingChannel P)
    (p : P) : (c.map f).heapWeight (f p) = c.heapWeight p := by
  rw [heapWeight, heapWeight, (hf p).orderingIndex_eq, (hf p).reliability_eq]
  congr 1
  by_cases hseq : (header p).reliability.isSequenced = true
  · rw [if_pos hseq, if_pos hseq, (hf p).sequencingIndex_eq]
    intro hordered
    rw [hordered] at hseq
    cases hseq
  · rw [if_neg hseq, if_neg hseq]

theorem handle_map (hf : ∀ p, SameOrdering (header p) (header (f p))) (c : OrderingChannel P)
    (p : P) : (c.map f).handle (f p) = ((c.handle p).1.map f, (c.handle p).2.map f) := by
  have hread : (c.map f).orderedReadIndex = c.orderedReadIndex := rfl
  have hhighest : (c.map f).highestSequencedReadIndex = c.highestSequencedReadIndex := rfl
  rw [handle, handle, (hf p).reliability_eq, (hf p).orderingIndex_eq, hread, hhighest]
  by_cases hkind : (header p).reliability = .reliableSequenced ∨
      (header p).reliability = .unreliableSequenced ∨ (header p).reliability = .reliableOrdered
  · rw [if_pos hkind, if_pos hkind]
    by_cases hnext : (header p).orderingIndex = c.orderedReadIndex
    · rw [if_pos hnext, if_pos hnext]
      by_cases hseq : (header p).reliability.isSequenced = true
      · have hindex : (header (f p)).sequencingIndex = (header p).sequencingIndex :=
          (hf p).sequencingIndex_eq fun hordered => by
            rw [hordered] at hseq
            cases hseq
        rw [if_pos hseq, if_pos hseq, hindex]
        split <;> rfl
      · rw [if_neg hseq, if_neg hseq]
        have hsize : (c.map f).orderingHeap.size = c.orderingHeap.size := List.length_map _
        have hrest := returnOffHeap_map hf c.orderingHeap.size { c with
          orderedReadIndex := c.orderedReadIndex.succ
          highestSequencedReadIndex := 0 }
        dsimp only
        rw [hsize]
        change returnOffHeap _ (OrderingChannel.map f _) = _ at hrest
        exact congrArg (fun r => (Disposition.returned (f p :: r.1), r.2)) hrest
    · rw [if_neg hnext, if_neg hnext]
      by_cases holder : isOlderOrderedPacket (header p).orderingIndex c.orderedReadIndex = false
      · rw [if_pos holder, if_pos holder]
        have hsize : (c.map f).orderingHeap.size = c.orderingHeap.size := List.length_map _
        have hbuffer : ∀ c' : OrderingChannel P, ({ c'.map f with
            orderingHeap := (c'.map f).orderingHeap.push ((c'.map f).heapWeight (f p)) (f p) } :
              OrderingChannel Q) =
            OrderingChannel.map f { c' with
              orderingHeap := c'.orderingHeap.push (c'.heapWeight p) p } := by
          intro c'
          have hpush := c'.orderingHeap.push_map f (c'.heapWeight p) p
          rw [heapWeight_map hf, show (c'.map f).orderingHeap = c'.orderingHeap.map f from rfl,
            hpush]
          rfl
        dsimp only
        rw [hsize]
        by_cases hempty : c.orderingHeap.size = 0
        · rw [if_pos hempty, if_pos hempty]
          exact congrArg (Prod.mk Disposition.buffered)
            (hbuffer { c with heapIndexOffset := c.orderedReadIndex })
        · rw [if_neg hempty, if_neg hempty]
          exact congrArg (Prod.mk Disposition.buffered) (hbuffer c)
      · rw [if_neg holder, if_neg holder]
        rfl
  · rw [if_neg hkind, if_neg hkind]
    rfl

/-- The channel and what has left it, after the messages have come to it. -/
def run (packets : List P) : OrderingChannel P × List P :=
  packets.foldl (fun s p => ((s.1.handle p).2, s.2 ++ (s.1.handle p).1.output)) (initial, [])

theorem run_concat (packets : List P) (p : P) : run (packets ++ [p]) =
    (((run packets).1.handle p).2, (run packets).2 ++ ((run packets).1.handle p).1.output) := by
  rw [run, List.foldl_append]
  rfl

theorem run_map (hf : ∀ p, SameOrdering (header p) (header (f p))) (packets : List P) :
    run (packets.map f) = ((run packets).1.map f, (run packets).2.map f) := by
  induction packets using List.reverseRecOn with
  | nil => rfl
  | append_singleton packets p ih =>
    rw [List.map_append, List.map_singleton, run_concat, run_concat, ih, handle_map hf]
    dsimp only
    rw [Disposition.output_map, List.map_append]

/-- What leaves a channel has come to it. -/
theorem mem_run {p : P} {packets : List P} (hp : p ∈ (run packets).2) : p ∈ packets := by
  let _ : HasTransmissionHeader { p // p ∈ packets } := ⟨fun p => header p.1⟩
  have hval : packets = packets.attach.map Subtype.val := (List.attach_map_subtype_val _).symm
  have hrun := @run_map { p // p ∈ packets } P _ _ Subtype.val (fun p => ⟨rfl, rfl, fun _ => rfl⟩)
    packets.attach
  rw [hval, hrun] at hp
  obtain ⟨p', -, rfl⟩ := List.mem_map.mp hp
  exact p'.2

end OrderingChannel

/-! ### The channels next to each other -/

namespace OrderingChannels

def run (packets : List TransmittedMessage) : OrderingChannels := packets.foldl handle initial

def isOn (orderingChannel : ℕ) (p : TransmittedMessage) : Bool :=
  p.reliability.isOnChannel && decide (p.orderingChannel = orderingChannel)

theorem run_concat (packets : List TransmittedMessage) (p : TransmittedMessage) :
    run (packets ++ [p]) = (run packets).handle p :=
  List.foldl_append

theorem handle_of_not_isOnChannel (s : OrderingChannels) {p : TransmittedMessage}
    (hp : p.reliability.isOnChannel = false) :
    s.handle p = { s with outputQueue := s.outputQueue ++ [p] } := by
  have hkind : ¬(p.reliability = .reliableSequenced ∨ p.reliability = .unreliableSequenced ∨
      p.reliability = .reliableOrdered) := by
    rintro (h | h | h) <;> rw [h] at hp <;> cases hp
  have hhandle : (s.channel p.orderingChannel).handle p =
      (.returned [p], s.channel p.orderingChannel) := if_neg hkind
  rw [handle, hhandle]
  dsimp only
  rw [Function.update_eq_self]
  rfl

/-- A channel sees the messages on it and nothing else, and the other messages go straight to the
queue. -/
theorem run_spec (packets : List TransmittedMessage) :
    (∀ j, ((run packets).channel j, (run packets).outputQueue.filter (isOn j)) =
      OrderingChannel.run (packets.filter (isOn j))) ∧
    (run packets).outputQueue.filter (fun p => !p.reliability.isOnChannel) =
      packets.filter fun p => !p.reliability.isOnChannel := by
  induction packets using List.reverseRecOn with
  | nil => exact ⟨fun _ => rfl, rfl⟩
  | append_singleton packets p ih =>
    obtain ⟨hchannels, hothers⟩ := ih
    rw [run_concat]
    cases hp : p.reliability.isOnChannel with
    | false =>
      have hoff : ∀ j, isOn j p = false := fun j => by rw [isOn, hp, Bool.false_and]
      rw [handle_of_not_isOnChannel _ hp]
      refine ⟨fun j => ?_, ?_⟩
      · rw [List.filter_append, List.filter_append, List.filter_cons_of_neg (by simp [hoff j]),
          List.filter_nil, List.append_nil, List.append_nil]
        exact hchannels j
      · rw [List.filter_append, List.filter_append, hothers]
    | true =>
      have hrun := OrderingChannel.run_concat (packets.filter (isOn p.orderingChannel)) p
      rw [← hchannels p.orderingChannel] at hrun
      have houtput : ∀ q ∈ (((run packets).channel p.orderingChannel).handle p).1.output,
          isOn p.orderingChannel q = true := by
        intro q hq
        have hmem : q ∈ packets.filter (isOn p.orderingChannel) ++ [p] := by
          apply OrderingChannel.mem_run
          rw [hrun]
          exact List.mem_append_right _ hq
        obtain hmem | hmem := List.mem_append.mp hmem
        · exact (List.mem_filter.mp hmem).2
        · rw [List.mem_singleton.mp hmem, isOn, hp, decide_eq_true rfl, Bool.true_and]
      refine ⟨fun j => ?_, ?_⟩
      · by_cases hj : j = p.orderingChannel
        · subst hj
          have hon : isOn p.orderingChannel p = true := by
            rw [isOn, hp, decide_eq_true rfl, Bool.true_and]
          rw [List.filter_append, List.filter_cons_of_pos hon, List.filter_nil, hrun, handle]
          dsimp only
          rw [Function.update_self, List.filter_append, List.filter_eq_self.mpr houtput]
        · have hoff : isOn j p = false := by
            rw [isOn, decide_eq_false (Ne.symm hj), Bool.and_false]
          have hnone : (((run packets).channel p.orderingChannel).handle p).1.output.filter (isOn j) =
              [] := by
            rw [List.filter_eq_nil_iff]
            intro q hq hqj
            have hqp := houtput q hq
            rw [isOn, Bool.and_eq_true, decide_eq_true_eq] at hqp hqj
            exact hj (hqj.2.symm.trans hqp.2)
          rw [List.filter_append, List.filter_cons_of_neg (by simp [hoff]), List.filter_nil,
            List.append_nil, handle]
          dsimp only
          rw [Function.update_of_ne hj, List.filter_append, hnone, List.append_nil]
          exact hchannels j
      · have hnone : (((run packets).channel p.orderingChannel).handle p).1.output.filter
            (fun p => !p.reliability.isOnChannel) = [] := by
          rw [List.filter_eq_nil_iff]
          intro q hq
          have hqp := houtput q hq
          rw [isOn, Bool.and_eq_true] at hqp
          rw [hqp.1]
          exact Bool.false_ne_true
        rw [handle]
        dsimp only
        rw [List.filter_append, List.filter_append, hnone, hothers, List.append_nil,
          List.filter_cons_of_neg (by simp [hp]), List.filter_nil, List.append_nil]

end OrderingChannels

end SLikeNet
