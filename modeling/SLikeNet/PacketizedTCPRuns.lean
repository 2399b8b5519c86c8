import SLikeNet.PacketizedTCP
import SLikeNet.Library.Framing
import SLikeNet.Library.GuardedRun

/-! `Receive` of `PacketizedTCP` returns the messages of a connection as they were sent, where the
notification of a connection is taken before its chunks. -/

namespace SLikeNet

/-- The frames of `PacketizedTCP`. -/
def packetFraming : Framing UInt8 where
  headerSize := 4
  encode := toBytes 4
  decode bytes := ofBytes (bytes ++ List.replicate (4 - bytes.length) 0)
  bound := 4294967296
  headerSize_pos := Nat.zero_lt_succ _
  length_encode := length_toBytes 4
  decode_encode n h := by
    rw [length_toBytes, Nat.sub_self, List.replicate_zero, List.append_nil]
    exact ofBytes_toBytes h

namespace ByteQueue

section Messages

variable {q : ByteQueue}

theorem hasMessage_iff (h : q.Ok) : q.HasMessage ↔ packetFraming.Complete q.contents := by
  rw [HasMessage, getBytesWritten_eq h, peekHeader, peekBytes_eq h, Framing.Complete, ge_iff_le,
    Nat.add_comm]
  exact Iff.rfl

theorem readMessage_spec (h : q.Ok) (hsum : q.readOffset + q.contents.length < 4294967296)
    (hmessage : q.HasMessage) :
    q.readMessage.1 = packetFraming.first q.contents ∧ q.readMessage.2.Ok ∧
      q.readMessage.2.contents = packetFraming.behind q.contents ∧
      q.readMessage.2.readOffset + q.readMessage.2.contents.length < 4294967296 := by
  have hcomplete := (hasMessage_iff h).mp hmessage
  rw [Framing.Complete] at hcomplete
  have hheader : q.peekHeader = packetFraming.decode (q.contents.take 4) := by
    rw [peekHeader, peekBytes_eq h]
    rfl
  have hlength : 4 + q.peekHeader ≤ q.contents.length := by
    rw [hheader]
    exact hcomplete
  obtain ⟨hok, hcontents⟩ := h.incrementReadOffset 4 (by omega) (by omega)
  have hoffset := readOffset_increment_le q 4 (by omega)
  have hbytes : (q.incrementReadOffset 4).peekBytes q.peekHeader =
      packetFraming.first q.contents := by
    rw [peekBytes_eq hok, hcontents, hheader]
    rfl
  have hbytesLength : (packetFraming.first q.contents).length = q.peekHeader := by
    rw [← hbytes, peekBytes_eq hok, hcontents, List.length_take_of_le]
    rw [List.length_drop]
    omega
  have hbehind : packetFraming.behind q.contents =
      (q.incrementReadOffset 4).contents.drop q.peekHeader := by
    rw [hcontents, hheader]
    rfl
  have hdropLength : (q.incrementReadOffset 4).contents.length = q.contents.length - 4 := by
    rw [hcontents, List.length_drop]
  rw [readMessage, readBytes]
  dsimp only
  rw [hbytes]
  refine ⟨rfl, ?_⟩
  split
  · rename_i hnil
    have hzero : q.peekHeader = 0 := by
      rw [← hbytesLength, hnil, List.length_nil]
    refine ⟨hok, ?_, by omega⟩
    rw [hbehind, hzero, List.drop_zero]
  · rw [hbytesLength, hbehind]
    obtain ⟨hok', hcontents'⟩ := hok.incrementReadOffset q.peekHeader (by omega)
      (by omega)
    have hoffset' := readOffset_increment_le (q.incrementReadOffset 4) q.peekHeader
      (by omega)
    refine ⟨hok', hcontents', ?_⟩
    rw [hcontents', List.length_drop]
    omega

theorem readMessages_spec (fuel : ℕ) (h : q.Ok)
    (hsum : q.readOffset + q.contents.length < 4294967296) :
    (q.readMessages fuel).1 = (packetFraming.extract fuel q.contents).1 ∧
      (q.readMessages fuel).2.Ok ∧
      (q.readMessages fuel).2.contents = (packetFraming.extract fuel q.contents).2 := by
  induction fuel generalizing q with
  | zero => exact ⟨rfl, h, rfl⟩
  | succ fuel ih =>
    rw [readMessages, Framing.extract]
    by_cases hmessage : q.HasMessage
    · obtain ⟨hfirst, hok, hcontents, hsum'⟩ := readMessage_spec h hsum hmessage
      obtain ⟨hmessages, hok', hrest⟩ := ih hok hsum'
      rw [if_pos hmessage, if_pos ((hasMessage_iff h).mp hmessage), ← hcontents, ← hfirst]
      exact ⟨congrArg (q.readMessage.1 :: ·) hmessages, hok', hrest⟩
    · rw [if_neg hmessage, if_neg fun hcomplete => hmessage ((hasMessage_iff h).mpr hcomplete)]
      exact ⟨rfl, h, rfl⟩

/-- The messages of packets. -/
def messagesOf (packets : List TCPPacketData) : List (List UInt8) :=
  packets.filterMap fun
    | .message data => some data
    | .downloadProgress _ _ _ => none

theorem messagesOf_map (messages : List (List UInt8)) :
    messagesOf (messages.map .message) = messages := by
  rw [messagesOf, List.filterMap_map]
  exact List.filterMap_some

theorem packetize_spec (h : q.Ok) (hsum : q.readOffset + q.contents.length < 4294967296)
    {length : ℕ} (hlength : length ≤ q.contents.length) :
    messagesOf (q.packetize length).1 =
        (packetFraming.extract q.contents.length q.contents).1 ∧
      (q.packetize length).2.Ok ∧
      (q.packetize length).2.contents =
        (packetFraming.extract q.contents.length q.contents).2 := by
  rw [packetize]
  by_cases hmessage : q.HasMessage
  · obtain ⟨hmessages, hok, hcontents⟩ := readMessages_spec q.contents.length h hsum
    rw [if_pos hmessage, getBytesWritten_eq h]
    exact ⟨(messagesOf_map _).trans hmessages, hok, hcontents⟩
  · have hnone : packetFraming.extract q.contents.length q.contents = ([], q.contents) := by
      cases q.contents.length with
      | zero => rfl
      | succ fuel =>
        rw [Framing.extract, if_neg fun hcomplete => hmessage ((hasMessage_iff h).mpr hcomplete)]
    rw [if_neg hmessage, hnone]
    split
    · rename_i hprogress
      have hsize : 4 ≤ q.contents.length := by
        rw [getBytesWritten_eq h, sub_eq (by omega) hlength] at hprogress
        by_contra hless
        apply hprogress
        rw [Nat.div_eq_of_lt (by omega), Nat.div_eq_of_lt (by omega)]
      have hback : q.downloadProgress.2 = q := decrement_increment h hsize (by omega)
      rw [hback]
      exact ⟨rfl, h, rfl⟩
    · exact ⟨rfl, h, rfl⟩

theorem write_packetize (h : q.Ok) {input : List UInt8} (hfits : q.Fits input.length) :
    ∃ q', q.writeBytes input = some q' ∧
      messagesOf (q'.packetize input.length).1 = (packetFraming.extract
        (q.contents ++ input).length (q.contents ++ input)).1 ∧
      (q'.packetize input.length).2.Ok ∧
      (q'.packetize input.length).2.contents = (packetFraming.extract
        (q.contents ++ input).length (q.contents ++ input)).2 := by
  obtain ⟨q', hq', hok, hcontents, hoffset⟩ := writeBytes_spec h hfits
  have hlength : q'.contents.length = q.contents.length + input.length := by
    rw [hcontents, List.length_append]
  refine ⟨q', hq', ?_⟩
  rw [← hcontents]
  exact packetize_spec hok (by have := hfits.2; omega) (by omega)

end Messages

end ByteQueue

/-! ### One connection -/

/-- What there is of the connections of a `SystemAddress`. -/
structure TCPView where
  connection : Option ByteQueue
  pending : ℕ
  lost : Bool
  chunks : List UInt8
  waiting : List (List UInt8)
  link : TCPLink

namespace TCPView

/-- The notification of a connection is taken before its chunks, which are then taken in order. -/
structure Ok (v : TCPView) : Prop where
  bound : ∀ message ∈ v.link.sent, message.length < packetFraming.bound
  discarded : v.link.up = true → v.link.discarded = []
  lost : v.link.up = true → v.lost = false
  returned : v.link.returned ++ v.waiting <+: v.link.sent
  pending : v.pending ≤ 1
  gone : v.connection = none → v.pending = 0 → v.link.up = false
  waits : v.pending ≠ 0 → v.link.discarded = [] → v.link.returned = [] ∧ v.waiting = [] ∧
    v.chunks ++ v.link.inFlight = packetFraming.stream v.link.sent
  framed : ∀ q, v.connection = some q → v.pending = 0 ∧ q.Ok ∧ (v.link.discarded = [] →
    ∃ rest, v.link.sent = v.link.returned ++ v.waiting ++ rest ∧
      q.contents ++ (v.chunks ++ v.link.inFlight) = packetFraming.stream rest ∧
      ¬packetFraming.Complete q.contents)

variable {v : TCPView}

theorem ok_closed : (⟨none, 0, false, [], [], .closed⟩ : TCPView).Ok := by
  constructor
  · exact List.forall_mem_nil _
  · exact fun _ => rfl
  · exact fun _ => rfl
  · exact List.nil_prefix
  · exact Nat.zero_le _
  · exact fun _ _ => rfl
  · exact fun h => (h rfl).elim
  · exact fun q hq => by cases hq

theorem ok_connect (hconnection : v.connection = none) (hlost : v.lost = false)
    (hchunks : v.chunks = []) (hwaiting : v.waiting = []) :
    Ok { v with pending := 1, link := .opened } := by
  constructor
  · exact List.forall_mem_nil _
  · exact fun _ => rfl
  · exact fun _ => hlost
  · exact hwaiting ▸ List.nil_prefix
  · exact Nat.le_refl _
  · exact fun _ h => by cases h
  · exact fun _ _ => ⟨rfl, hwaiting, by rw [hchunks]; rfl⟩
  · intro q hq
    rw [hconnection] at hq
    cases hq

theorem Ok.sent (h : v.Ok) {message : List UInt8} (hbound : message.length < 4294967296) :
    Ok { v with link := { v.link with
      sent := v.link.sent ++ [message]
      inFlight := v.link.inFlight ++ packetFraming.frame message } } := by
  constructor
  · intro m hm
    rcases List.mem_append.mp hm with hm | hm
    · exact h.bound m hm
    · rw [List.mem_singleton.mp hm]
      exact hbound
  · exact h.discarded
  · exact h.lost
  · exact h.returned.trans (List.prefix_append _ _)
  · exact h.pending
  · exact h.gone
  · intro hpending hdiscarded
    obtain ⟨hreturned, hwaiting, hbytes⟩ := h.waits hpending hdiscarded
    refine ⟨hreturned, hwaiting, ?_⟩
    dsimp only
    rw [← List.append_assoc, hbytes, Framing.stream_concat]
  · intro q hq
    obtain ⟨hpending, hok, hframed⟩ := h.framed q hq
    refine ⟨hpending, hok, fun hdiscarded => ?_⟩
    obtain ⟨rest, hsent, hbytes, hnot⟩ := hframed hdiscarded
    refine ⟨rest ++ [message], ?_, ?_, hnot⟩
    · dsimp only
      rw [hsent, List.append_assoc _ rest]
    · dsimp only
      rw [← List.append_assoc v.chunks, ← List.append_assoc, hbytes, Framing.stream_concat]

theorem Ok.arrive (h : v.Ok) (length : ℕ) :
    Ok { v with
      chunks := v.chunks ++ v.link.inFlight.take length
      link := { v.link with inFlight := v.link.inFlight.drop length } } := by
  have hbytes : v.chunks ++ v.link.inFlight.take length ++ v.link.inFlight.drop length =
      v.chunks ++ v.link.inFlight := by
    rw [List.append_assoc, List.take_append_drop]
  constructor
  · exact h.bound
  · exact h.discarded
  · exact h.lost
  · exact h.returned
  · exact h.pending
  · exact h.gone
  · intro hpending hdiscarded
    dsimp only
    rw [hbytes]
    exact h.waits hpending hdiscarded
  · intro q hq
    dsimp only
    rw [hbytes]
    exact h.framed q hq

theorem Ok.lose (h : v.Ok) : Ok { v with lost := true, link := { v.link with up := false } } :=
  ⟨h.bound, (fun hup => by cases hup), (fun hup => by cases hup), h.returned, h.pending,
    fun _ _ => rfl, h.waits, h.framed⟩

theorem Ok.remove (h : v.Ok) {lost up : Bool} (hup : up = false) :
    Ok { v with connection := none, lost := lost, link := { v.link with up := up } } := by
  subst hup
  exact ⟨h.bound, (fun hup => by cases hup), (fun hup => by cases hup), h.returned, h.pending,
    fun _ _ => rfl, h.waits, fun q hq => by cases hq⟩

theorem Ok.add (h : v.Ok) {pending : ℕ} (hpending : v.pending = pending + 1) :
    v.connection = none ∧ Ok { v with connection := some .empty, pending := pending } := by
  have hle := h.pending
  have hzero : pending = 0 := by omega
  have hnone : v.connection = none := by
    cases hconnection : v.connection with
    | none => rfl
    | some q =>
      have hq := (h.framed q hconnection).1
      omega
  refine ⟨hnone, h.bound, h.discarded, h.lost, h.returned, ?_, (fun hc => by cases hc), ?_, ?_⟩
  · exact hzero ▸ Nat.zero_le _
  · exact fun hne => (hne hzero).elim
  · intro q hq
    obtain rfl := Option.some.inj hq
    refine ⟨hzero, ⟨by decide, .inr ⟨rfl, rfl⟩, .inr ⟨rfl, rfl⟩⟩, fun hdiscarded => ?_⟩
    obtain ⟨hreturned, hwaiting, hbytes⟩ := h.waits (by omega) hdiscarded
    refine ⟨v.link.sent, ?_, hbytes, Framing.not_complete_nil⟩
    rw [hreturned, hwaiting]
    rfl

theorem Ok.return (h : v.Ok) {data : List UInt8} {waiting : List (List UInt8)}
    (hwaiting : v.waiting = data :: waiting) :
    Ok { v with
      waiting := waiting
      link := { v.link with returned := v.link.returned ++ [data] } } := by
  have hmessages : v.link.returned ++ [data] ++ waiting = v.link.returned ++ v.waiting := by
    rw [hwaiting, List.append_assoc]
    rfl
  constructor
  · exact h.bound
  · exact h.discarded
  · exact h.lost
  · dsimp only
    rw [hmessages]
    exact h.returned
  · exact h.pending
  · exact h.gone
  · intro hpending hdiscarded
    have hnil := (h.waits hpending hdiscarded).2.1
    rw [hwaiting] at hnil
    cases hnil
  · intro q hq
    dsimp only
    rw [hmessages]
    exact h.framed q hq

theorem Ok.keep (h : v.Ok) {q : ByteQueue} (hq : v.connection = some q) {data chunks : List UInt8}
    (hchunks : v.chunks = data ++ chunks) (hdiscarded : v.link.discarded = [])
    (hfits : q.Fits data.length) :
    ∃ q', q.writeBytes data = some q' ∧ Ok { v with
      connection := some (q'.packetize data.length).2
      chunks := chunks
      waiting := v.waiting ++ ByteQueue.messagesOf (q'.packetize data.length).1 } := by
  obtain ⟨hpending, hok, hframed⟩ := h.framed q hq
  obtain ⟨rest, hsent, hbytes, -⟩ := hframed hdiscarded
  obtain ⟨q', hq', hmessages, hok', hcontents⟩ := ByteQueue.write_packetize hok hfits
  have hsplit : q.contents ++ data ++ (chunks ++ v.link.inFlight) =
      packetFraming.stream rest := by
    rw [← hbytes, hchunks, List.append_assoc, List.append_assoc]
  have hrest : ∀ message ∈ rest, message.length < packetFraming.bound := fun message hmessage =>
    h.bound message (hsent ▸ List.mem_append_right _ hmessage)
  obtain ⟨rest', hrest', hbytes', hnot⟩ :=
    Framing.extract_stream hrest (Nat.le_refl (q.contents ++ data).length) hsplit
  rw [← hmessages] at hrest'
  rw [← hcontents] at hbytes' hnot
  have hsent' : v.link.sent = v.link.returned ++
      (v.waiting ++ ByteQueue.messagesOf (q'.packetize data.length).1) ++ rest' := by
    rw [hsent, hrest']
    simp only [List.append_assoc]
  refine ⟨q', hq', h.bound, h.discarded, h.lost, ⟨rest', hsent'.symm⟩, h.pending,
    (fun hc => by cases hc), fun hne => (hne hpending).elim, ?_⟩
  intro q'' hq''
  obtain rfl := Option.some.inj hq''
  exact ⟨hpending, hok', fun _ => ⟨rest', hsent', hbytes', hnot⟩⟩

theorem Ok.discard (h : v.Ok) (hconnection : v.connection = none) (hup : v.link.up = false)
    {data chunks : List UInt8} (hchunks : v.chunks = data ++ chunks) :
    Ok { v with
      chunks := chunks
      link := { v.link with discarded := v.link.discarded ++ data } } := by
  constructor
  · exact h.bound
  · intro hup'
    rw [hup] at hup'
    cases hup'
  · exact h.lost
  · exact h.returned
  · exact h.pending
  · exact h.gone
  · intro hpending hdiscarded
    obtain ⟨hnone, rfl⟩ := List.append_eq_nil_iff.mp hdiscarded
    rw [List.nil_append] at hchunks
    have hwaits := h.waits hpending hnone
    rwa [hchunks] at hwaits
  · intro q hq
    rw [hconnection] at hq
    cases hq

/-- What the connection keeps. -/
structure Kept (v : TCPView) : Prop where
  returned : v.link.returned <+: v.link.sent
  discarded : v.link.up = true → v.link.discarded = []
  complete : v.link.up = true → v.link.inFlight = [] → v.chunks = [] → v.waiting = [] →
    v.link.returned = v.link.sent

theorem Ok.kept (h : v.Ok) : v.Kept := by
  refine ⟨(List.prefix_append _ _).trans h.returned, h.discarded, ?_⟩
  intro hup hinFlight hchunks hwaiting
  have hdiscarded := h.discarded hup
  cases hconnection : v.connection with
  | none =>
    have hpending : v.pending ≠ 0 := fun hzero => by
      have hdown := h.gone hconnection hzero
      rw [hup] at hdown
      cases hdown
    obtain ⟨hreturned, -, hbytes⟩ := h.waits hpending hdiscarded
    rw [hchunks, hinFlight] at hbytes
    have hnil := Framing.eq_nil_of_not_complete h.bound
      (by rw [← hbytes]; exact Framing.not_complete_nil)
    rw [hreturned, hnil]
  | some q =>
    obtain ⟨-, -, hframed⟩ := h.framed q hconnection
    obtain ⟨rest, hsent, hbytes, hnot⟩ := hframed hdiscarded
    rw [hchunks, hinFlight, List.append_nil, List.append_nil] at hbytes
    rw [hbytes] at hnot
    have hnil := Framing.eq_nil_of_not_complete (fun message hmessage =>
      h.bound message (hsent ▸ List.mem_append_right _ hmessage)) hnot
    rw [hsent, hnil, hwaiting, List.append_nil, List.append_nil]

end TCPView

namespace PacketizedTCP

/-! ### The connections of a system -/

/-- The bytes of a system in the chunks. -/
def bytesOf (sa : ℕ) (chunks : List TCPChunk) : List UInt8 :=
  (chunks.filter (·.systemAddress = sa)).flatMap (·.data)

/-- The messages of a system in the packets. -/
def messagesFrom (sa : ℕ) (packets : List TCPPacket) : List (List UInt8) :=
  ByteQueue.messagesOf ((packets.filter (·.systemAddress = sa)).map (·.data))

def view (s : PacketizedTCP) (link : TCPLink) (sa : ℕ) : TCPView where
  connection := s.connections sa
  pending := s.newIncomingConnections.count sa + s.completedConnectionAttempts.count sa
  lost := sa ∈ s.lostConnections
  chunks := bytesOf sa s.incomingMessages
  waiting := messagesFrom sa s.waitingPackets
  link := link

section Lists

variable {sa : ℕ}

theorem bytesOf_append (xs ys : List TCPChunk) :
    bytesOf sa (xs ++ ys) = bytesOf sa xs ++ bytesOf sa ys := by
  simp [bytesOf]

theorem bytesOf_cons_self {chunk : TCPChunk} (h : chunk.systemAddress = sa)
    (chunks : List TCPChunk) :
    bytesOf sa (chunk :: chunks) = chunk.data ++ bytesOf sa chunks := by
  simp [bytesOf, h]

theorem bytesOf_cons_other {chunk : TCPChunk} (h : chunk.systemAddress ≠ sa)
    (chunks : List TCPChunk) : bytesOf sa (chunk :: chunks) = bytesOf sa chunks := by
  simp [bytesOf, h]

theorem messagesFrom_append (xs ys : List TCPPacket) :
    messagesFrom sa (xs ++ ys) = messagesFrom sa xs ++ messagesFrom sa ys := by
  simp [messagesFrom, ByteQueue.messagesOf]

theorem messagesFrom_map_self (data : List TCPPacketData) :
    messagesFrom sa (data.map (TCPPacket.mk sa)) = ByteQueue.messagesOf data := by
  have hself : (data.map (TCPPacket.mk sa)).filter (·.systemAddress = sa) =
      data.map (TCPPacket.mk sa) :=
    List.filter_eq_self.mpr fun packet hpacket => by
      obtain ⟨_, -, rfl⟩ := List.mem_map.mp hpacket
      exact decide_eq_true rfl
  rw [messagesFrom, hself, List.map_map]
  exact congrArg _ (List.map_id _)

theorem messagesFrom_map_other {other : ℕ} (h : other ≠ sa) (data : List TCPPacketData) :
    messagesFrom sa (data.map (TCPPacket.mk other)) = [] := by
  have hnone : (data.map (TCPPacket.mk other)).filter (·.systemAddress = sa) = [] :=
    List.filter_eq_nil_iff.mpr fun packet hpacket => by
      obtain ⟨_, -, rfl⟩ := List.mem_map.mp hpacket
      simpa using h
  rw [messagesFrom, hnone]
  rfl

theorem messagesFrom_cons_other {packet : TCPPacket} (h : packet.systemAddress ≠ sa)
    (packets : List TCPPacket) : messagesFrom sa (packet :: packets) = messagesFrom sa packets := by
  simp [messagesFrom, h]

end Lists

section Notifications

variable {s : PacketizedTCP} {link : TCPLink} {sa : ℕ}

theorem addToConnectionList_new {added : ℕ} (h : s.connections added = none) :
    s.addToConnectionList added =
      { s with connections := Function.update s.connections added (some .empty) } := by
  rw [addToConnectionList, h]

theorem view_addToConnectionList_other {added : ℕ} (h : sa ≠ added) :
    (s.addToConnectionList added).view link sa = s.view link sa := by
  rw [addToConnectionList]
  split
  · rw [view, view]
    dsimp only
    rw [Function.update_of_ne h]
  · rfl

theorem view_removeFromConnectionList (removed : ℕ) :
    (s.removeFromConnectionList removed).view link sa =
      if sa = removed then { s.view link sa with connection := none } else s.view link sa := by
  rw [view, removeFromConnectionList]
  dsimp only
  split
  · rename_i heq
    rw [heq, Function.update_self]
    rfl
  · rename_i hne
    rw [Function.update_of_ne hne]
    rfl

theorem ok_hasNewIncomingConnection (h : (s.view link sa).Ok) :
    (s.hasNewIncomingConnection.view link sa).Ok := by
  rw [hasNewIncomingConnection]
  cases hnew : s.newIncomingConnections with
  | nil => exact h
  | cons added rest =>
    dsimp only
    by_cases heq : sa = added
    · subst heq
      have hpending : (s.view link sa).pending =
          rest.count sa + s.completedConnectionAttempts.count sa + 1 := by
        simp only [view, hnew, List.count_cons_self]
        omega
      obtain ⟨hnone, hok⟩ := h.add hpending
      rw [addToConnectionList_new (by exact hnone)]
      simpa only [view, Function.update_self] using hok
    · rw [view_addToConnectionList_other heq]
      simpa only [view, hnew, List.count_cons_of_ne (Ne.symm heq)] using h

theorem ok_hasCompletedConnectionAttempt (h : (s.view link sa).Ok) :
    (s.hasCompletedConnectionAttempt.view link sa).Ok := by
  rw [hasCompletedConnectionAttempt]
  cases hnew : s.completedConnectionAttempts with
  | nil => exact h
  | cons added rest =>
    dsimp only
    by_cases heq : sa = added
    · subst heq
      have hpending : (s.view link sa).pending =
          s.newIncomingConnections.count sa + rest.count sa + 1 := by
        simp only [view, hnew, List.count_cons_self]
        omega
      obtain ⟨hnone, hok⟩ := h.add hpending
      rw [addToConnectionList_new (by exact hnone)]
      simpa only [view, Function.update_self] using hok
    · rw [view_addToConnectionList_other heq]
      simpa only [view, hnew, List.count_cons_of_ne (Ne.symm heq)] using h

theorem ok_hasLostConnection (h : (s.view link sa).Ok) :
    (s.hasLostConnection.view link sa).Ok := by
  rw [hasLostConnection]
  cases hlost : s.lostConnections with
  | nil => exact h
  | cons removed rest =>
    rw [view_removeFromConnectionList]
    split
    · rename_i heq
      have hup : link.up = false := by
        cases hup : link.up with
        | false => rfl
        | true =>
          have hnot := h.lost hup
          simp [view, hlost, heq] at hnot
      exact h.remove hup
    · rename_i hne
      simpa only [view, hlost, List.mem_cons, hne, false_or] using h

theorem ok_pushNotificationsToQueues (h : (s.view link sa).Ok) :
    (s.pushNotificationsToQueues.view link sa).Ok :=
  ok_hasCompletedConnectionAttempt (ok_hasLostConnection (ok_hasNewIncomingConnection h))

end Notifications

section Chunks

variable {s : PacketizedTCP} {chunk : TCPChunk} {chunks : List TCPChunk}

/-- The condition on a chunk that is taken: a system that has it is in the list, and there is room
for it in 32 bits, or its connection is not up any more. -/
def Takes (s : PacketizedTCP) (link : TCPLink) (chunk : TCPChunk) : Prop :=
  (∃ q, s.connections chunk.systemAddress = some q ∧ q.Fits chunk.data.length ∧
    link.discarded = []) ∨
  (s.connections chunk.systemAddress = none ∧ link.up = false)

theorem handle_kept {q q' : ByteQueue} (hq : s.connections chunk.systemAddress = some q)
    (hwrite : q.writeBytes chunk.data = some q') :
    handle chunk s = some { s with
      connections := Function.update s.connections chunk.systemAddress
        (some (q'.packetize chunk.data.length).2)
      waitingPackets := s.waitingPackets ++
        (q'.packetize chunk.data.length).1.map (TCPPacket.mk chunk.systemAddress) } := by
  rw [handle, hq]
  dsimp only
  rw [hwrite]
  rfl

theorem handle_discarded (h : s.connections chunk.systemAddress = none) :
    handle chunk s = some s := by
  rw [handle, h]

end Chunks

end PacketizedTCP

namespace TCPWorld

open PacketizedTCP

section Steps

variable {s : TCPWorld} {sa : ℕ}

def view (s : TCPWorld) (sa : ℕ) : TCPView := s.tcp.view (s.link sa) sa

/-- The connections are in order, and no memory was accessed that is not allocated. -/
structure Sound (s : TCPWorld) : Prop where
  ok : ∀ sa, (s.view sa).Ok
  defined : s.undefined = false

theorem link_setLink (set : ℕ) (link : TCPLink) :
    (s.setLink set link).link sa = if sa = set then link else s.link sa :=
  Function.update_apply _ _ _ _

theorem view_setLink (set : ℕ) (link : TCPLink) :
    (s.setLink set link).view sa =
      if sa = set then { s.view sa with link := link } else s.view sa := by
  rw [view, link_setLink]
  split <;> rfl

/-- Nothing of an earlier connection of the system is left. -/
def Forgotten (s : TCPWorld) (sa : ℕ) : Prop :=
  s.tcp.connections sa = none ∧ sa ∉ s.tcp.newIncomingConnections ∧
    sa ∉ s.tcp.completedConnectionAttempts ∧ sa ∉ s.tcp.lostConnections ∧
    (∀ chunk ∈ s.tcp.incomingMessages, chunk.systemAddress ≠ sa) ∧
    ∀ packet ∈ s.tcp.waitingPackets, packet.systemAddress ≠ sa

/-- The lengths are those of the claim of TCP: between 1 and 2^31 bytes for a message, and at most
1048576 bytes for a chunk. -/
def Possible (s : TCPWorld) : Operation → Prop
  | .connect sa _ => (s.link sa).up = false
  | .send sa data => (s.link sa).up = true ∧ 1 ≤ data.length ∧ data.length ≤ 2147483648
  | .sendList sa data =>
    (s.link sa).up = true ∧ 1 ≤ data.flatten.length ∧ data.flatten.length ≤ 2147483648
  | .arrive sa length =>
    (s.link sa).up = true ∧ 1 ≤ length ∧ length ≤ (s.link sa).inFlight.length ∧ length ≤ 1048576
  | .lose sa => (s.link sa).up = true
  | .closeConnection _ => s.receiving = false
  | .pushNotifications => s.receiving = false
  | .receive => s.receiving = false
  | .receiveInt => s.receiving = true

instance (s : TCPWorld) : (op : Operation) → Decidable (s.Possible op)
  | .connect sa _ => inferInstanceAs (Decidable ((s.link sa).up = false))
  | .send _ _ => inferInstanceAs (Decidable (_ ∧ _ ∧ _))
  | .sendList _ _ => inferInstanceAs (Decidable (_ ∧ _ ∧ _))
  | .arrive _ _ => inferInstanceAs (Decidable (_ ∧ _ ∧ _ ∧ _))
  | .lose sa => inferInstanceAs (Decidable ((s.link sa).up = true))
  | .closeConnection _ => inferInstanceAs (Decidable (s.receiving = false))
  | .pushNotifications => inferInstanceAs (Decidable (s.receiving = false))
  | .receive => inferInstanceAs (Decidable (s.receiving = false))
  | .receiveInt => inferInstanceAs (Decidable (s.receiving = true))

/-- At most 511 parameters are sent at once, a chunk is taken after the notification of its
connection, and a system connects again when nothing of its last connection is left. -/
def Handled (s : TCPWorld) : Operation → Prop
  | .connect sa _ => s.Forgotten sa
  | .sendList _ data => data.length ≤ 511
  | .receiveInt => ∀ chunk ∈ s.tcp.incomingMessages.head?,
    s.tcp.Takes (s.link chunk.systemAddress) chunk
  | _ => True

def Reachable (allowed : TCPWorld → Operation → Prop) : TCPWorld → Prop :=
  GuardedRun.Reachable perform (fun s op => s.Possible op ∧ allowed s op) start

theorem sound_start : start.Sound := ⟨fun _ => TCPView.ok_closed, rfl⟩

theorem Sound.setLink (h : s.Sound) {set : ℕ} {link : TCPLink}
    (hok : TCPView.Ok { s.view set with link := link }) : (s.setLink set link).Sound := by
  refine ⟨fun sa => ?_, h.defined⟩
  rw [view_setLink]
  split
  · rename_i heq
    rw [heq]
    exact hok
  · exact h.ok sa

theorem sendList_eq {data : List (List UInt8)} (hpos : 1 ≤ data.flatten.length)
    (hle : data.flatten.length ≤ 2147483648) (hparameters : data.length ≤ 511) :
    PacketizedTCP.sendList data = some (packetFraming.frame data.flatten) := by
  have htotal : totalLengthOfUserData data = data.flatten.length := by
    rw [totalLengthOfUserData, ByteQueue.wrap_eq (by omega)]
  rw [PacketizedTCP.sendList, htotal, if_neg (by omega), if_neg (by omega),
    List.take_of_length_le hparameters]
  rfl

theorem Sound.sent (h : s.Sound) (sa : ℕ) {message : List UInt8}
    (hle : message.length ≤ 2147483648) :
    (s.sent sa message (packetFraming.frame message)).Sound :=
  h.setLink ((h.ok sa).sent (by omega))

theorem Sound.connect (h : s.Sound) {sa : ℕ} {incoming : Bool} (hforgotten : s.Forgotten sa) :
    (s.connect sa incoming).Sound := by
  obtain ⟨hconnection, hnew, hcompleted, hlost, hchunks, hpackets⟩ := hforgotten
  have hnoBytes : bytesOf sa s.tcp.incomingMessages = [] := by
    have hnone : s.tcp.incomingMessages.filter (·.systemAddress = sa) = [] :=
      List.filter_eq_nil_iff.mpr fun chunk hchunk => by simpa using hchunks chunk hchunk
    rw [bytesOf, hnone]
    rfl
  have hnoMessages : messagesFrom sa s.tcp.waitingPackets = [] := by
    have hnone : s.tcp.waitingPackets.filter (·.systemAddress = sa) = [] :=
      List.filter_eq_nil_iff.mpr fun packet hpacket => by simpa using hpackets packet hpacket
    rw [messagesFrom, hnone]
    rfl
  have hok := TCPView.ok_connect (v := s.view sa) hconnection (decide_eq_false hlost) hnoBytes
    hnoMessages
  have hzero := List.count_eq_zero_of_not_mem hnew
  have hzero' := List.count_eq_zero_of_not_mem hcompleted
  refine ⟨fun other => ?_, h.defined⟩
  rw [TCPWorld.connect, view_setLink]
  by_cases heq : other = sa
  · subst heq
    rw [if_pos rfl]
    cases incoming with
    | true => simpa [view, PacketizedTCP.view, List.count_append, hzero, hzero'] using hok
    | false => simpa [view, PacketizedTCP.view, List.count_append, hzero, hzero'] using hok
  · have hother := h.ok other
    have hne : sa ≠ other := fun h => heq h.symm
    rw [if_neg heq]
    cases incoming with
    | true =>
      simpa [view, PacketizedTCP.view, List.count_append, List.count_singleton, hne] using hother
    | false =>
      simpa [view, PacketizedTCP.view, List.count_append, List.count_singleton, hne] using hother

theorem Sound.arrive (h : s.Sound) (sa length : ℕ) : (s.arrive sa length).Sound := by
  refine ⟨fun other => ?_, h.defined⟩
  rw [TCPWorld.arrive, view_setLink]
  by_cases heq : other = sa
  · subst heq
    rw [if_pos rfl]
    have hok := (h.ok other).arrive length
    simpa [view, PacketizedTCP.view, bytesOf_append, bytesOf] using hok
  · have hother := h.ok other
    have hne : sa ≠ other := fun h => heq h.symm
    rw [if_neg heq]
    simpa [view, PacketizedTCP.view, bytesOf_append, bytesOf, hne] using hother

theorem Sound.lose (h : s.Sound) (sa : ℕ) : (s.lose sa).Sound := by
  refine ⟨fun other => ?_, h.defined⟩
  rw [TCPWorld.lose, view_setLink]
  by_cases heq : other = sa
  · subst heq
    rw [if_pos rfl]
    have hok := (h.ok other).lose
    simpa [view, PacketizedTCP.view] using hok
  · have hother := h.ok other
    rw [if_neg heq]
    simpa [view, PacketizedTCP.view, heq] using hother

theorem Sound.closeConnection (h : s.Sound) (sa : ℕ) : (s.closeConnection sa).Sound := by
  refine ⟨fun other => ?_, h.defined⟩
  rw [TCPWorld.closeConnection, view_setLink]
  have hview : ({ s with tcp := s.tcp.removeFromConnectionList sa } : TCPWorld).view other =
      if other = sa then { s.view other with connection := none } else s.view other :=
    view_removeFromConnectionList sa
  rw [hview]
  by_cases heq : other = sa
  · subst heq
    rw [if_pos rfl, if_pos rfl]
    exact (h.ok other).remove rfl
  · rw [if_neg heq, if_neg heq]
    exact h.ok other

theorem Sound.pushNotifications (h : s.Sound) :
    Sound { s with tcp := s.tcp.pushNotificationsToQueues } :=
  ⟨fun sa => ok_pushNotificationsToQueues (h.ok sa), h.defined⟩

theorem Sound.returnOutgoingPacket (h : s.Sound) : s.returnOutgoingPacket.Sound := by
  rw [TCPWorld.returnOutgoingPacket]
  cases hpackets : s.tcp.waitingPackets with
  | nil => exact h
  | cons packet rest =>
    obtain ⟨from', data⟩ := packet
    cases data with
    | message data =>
      refine ⟨fun sa => ?_, h.defined⟩
      dsimp only
      rw [view_setLink]
      by_cases heq : sa = from'
      · subst heq
        rw [if_pos rfl]
        have hwaiting : (s.view sa).waiting = data :: messagesFrom sa rest := by
          simp [view, PacketizedTCP.view, hpackets, messagesFrom, ByteQueue.messagesOf]
        exact (h.ok sa).return hwaiting
      · have hother := h.ok sa
        have hne : from' ≠ sa := fun h => heq h.symm
        rw [if_neg heq]
        rw [view, PacketizedTCP.view, hpackets, messagesFrom_cons_other hne] at hother
        exact hother
    | downloadProgress partIndex totalParts oneChunk =>
      refine ⟨fun sa => ?_, h.defined⟩
      have hok := h.ok sa
      have hsame : messagesFrom sa (⟨from', .downloadProgress partIndex totalParts oneChunk⟩ ::
          rest) = messagesFrom sa rest := by
        by_cases heq : from' = sa
        · simp [messagesFrom, ByteQueue.messagesOf, heq]
        · exact messagesFrom_cons_other heq rest
      rw [view, PacketizedTCP.view, hpackets, hsame] at hok
      exact hok

theorem Sound.receive (h : s.Sound) : s.receive.Sound := by
  rw [TCPWorld.receive]
  dsimp only
  split
  · exact ⟨h.pushNotifications.ok, h.defined⟩
  · exact h.pushNotifications.returnOutgoingPacket

theorem Sound.receiveInt (h : s.Sound) (hhandled : s.Handled .receiveInt) :
    s.receiveInt.Sound := by
  rw [TCPWorld.receiveInt]
  cases hmessages : s.tcp.incomingMessages with
  | nil =>
    have hidle : Sound { s with receiving := false } := ⟨h.ok, h.defined⟩
    exact hidle.returnOutgoingPacket
  | cons chunk rest =>
    have hself : (s.view chunk.systemAddress).chunks =
        chunk.data ++ bytesOf chunk.systemAddress rest := by
      rw [view, PacketizedTCP.view, hmessages]
      exact bytesOf_cons_self rfl rest
    have hother : ∀ sa, sa ≠ chunk.systemAddress →
        bytesOf sa s.tcp.incomingMessages = bytesOf sa rest := fun sa hne => by
      rw [hmessages, bytesOf_cons_other hne.symm]
    dsimp only
    rcases hhandled chunk (by rw [hmessages]; exact rfl) with ⟨q, hq, hfits, hdiscarded⟩ |
        ⟨hnone, hup⟩
    · obtain ⟨q', hwrite, hok⟩ :=
        (h.ok chunk.systemAddress).keep hq hself hdiscarded hfits
      rw [handle_kept (by exact hq) hwrite]
      dsimp only
      rw [noteDiscarded, hq]
      refine ⟨fun sa => ?_, h.defined⟩
      by_cases heq : sa = chunk.systemAddress
      · subst heq
        simpa only [view, PacketizedTCP.view, Function.update_self, messagesFrom_append,
          messagesFrom_map_self] using hok
      · have hok' := h.ok sa
        rw [view, PacketizedTCP.view, hother sa heq] at hok'
        simpa only [view, PacketizedTCP.view, Function.update_of_ne heq, messagesFrom_append,
          messagesFrom_map_other (Ne.symm heq), List.append_nil] using hok'
    · rw [handle_discarded (by exact hnone)]
      dsimp only
      rw [noteDiscarded, hnone]
      refine ⟨fun sa => ?_, h.defined⟩
      by_cases heq : sa = chunk.systemAddress
      · subst heq
        have hok := (h.ok chunk.systemAddress).discard hnone hup hself
        simpa only [view, PacketizedTCP.view, link_setLink, if_true] using hok
      · have hok' := h.ok sa
        rw [view, PacketizedTCP.view, hother sa heq] at hok'
        simpa only [view, PacketizedTCP.view, link_setLink, heq, if_false] using hok'

theorem Sound.perform (h : s.Sound) (op : Operation) (hpossible : s.Possible op)
    (hhandled : s.Handled op) : (s.perform op).Sound := by
  cases op with
  | connect sa incoming => exact h.connect hhandled
  | send sa data => exact h.sent sa hpossible.2.2
  | sendList sa data =>
    rw [TCPWorld.perform, TCPWorld.sendList,
      sendList_eq hpossible.2.1 hpossible.2.2 hhandled]
    exact h.sent sa hpossible.2.2
  | arrive sa length => exact h.arrive sa length
  | lose sa => exact h.lose sa
  | closeConnection sa => exact h.closeConnection sa
  | pushNotifications => exact h.pushNotifications
  | receive => exact h.receive
  | receiveInt => exact h.receiveInt hhandled

theorem Reachable.sound (h : Reachable Handled s) : s.Sound :=
  GuardedRun.Reachable.invariant (I := Sound) h sound_start
    fun _ op hsound hop => hsound.perform op hop.1 hop.2

end Steps

/-- Every connection keeps its messages. -/
def Preserved (s : TCPWorld) : Prop := s.undefined = false ∧ ∀ sa, (s.view sa).Kept

/-- In every run whose steps are handled `Receive` returns the messages of every connection in order
and without a loss, and all of them when nothing is on its way. -/
theorem messages_preserved {s : TCPWorld} (h : Reachable Handled s) : s.Preserved :=
  ⟨h.sound.defined, fun sa => (h.sound.ok sa).kept⟩

/-- One connection, on which a message of one byte is sent. -/
def oneOperations : List Operation :=
  [.connect 1 true, .send 1 [7], .arrive 1 5, .receive, .receiveInt, .receiveInt]

def one : TCPWorld := oneOperations.foldl perform start

theorem reachable_one : Reachable Handled one := by
  refine GuardedRun.Reachable.run .start (.intro ⟨?_, ?_⟩ (.intro ⟨?_, trivial⟩
    (.intro ⟨?_, trivial⟩ (.intro ⟨?_, trivial⟩ (.intro ⟨?_, ?_⟩ (.intro ⟨?_, ?_⟩ trivial))))))
  · decide
  · exact ⟨rfl, List.not_mem_nil, List.not_mem_nil, List.not_mem_nil, List.forall_mem_nil _,
      List.forall_mem_nil _⟩
  · decide
  · decide
  · decide
  · decide
  · intro chunk hchunk
    obtain rfl := Option.some.inj hchunk
    exact .inl ⟨.empty, rfl, ⟨fun _ => by decide, by decide⟩, rfl⟩
  · decide
  · intro chunk hchunk
    cases hchunk

/-- The message is returned. -/
theorem messages_preserved_one : (one.link 1).returned = [[7]] ∧ one.Preserved :=
  ⟨by decide +kernel, messages_preserved reachable_one⟩

/-- Two connections are accepted before `Receive` is called. -/
def twoOperations : List Operation :=
  [.connect 1 true, .connect 2 true, .send 2 [7], .arrive 2 5, .receive, .receiveInt]

def two : TCPWorld := twoOperations.foldl perform start

theorem reachable_two : Reachable (fun _ _ => True) two := by
  refine GuardedRun.Reachable.run .start (.intro ⟨?_, trivial⟩ (.intro ⟨?_, trivial⟩
    (.intro ⟨?_, trivial⟩ (.intro ⟨?_, trivial⟩ (.intro ⟨?_, trivial⟩
      (.intro ⟨?_, trivial⟩ trivial))))))
  all_goals decide +kernel

/-- One notification is taken, and the chunk of the other connection is not kept. -/
theorem two_not_preserved : Reachable (fun _ _ => True) two ∧ ¬two.Preserved := by
  refine ⟨reachable_two, fun h => ?_⟩
  have hdiscarded : (two.link 2).discarded = [] := (h.2 2).discarded (by decide +kernel)
  exact absurd hdiscarded (by decide +kernel)

end TCPWorld

end SLikeNet
