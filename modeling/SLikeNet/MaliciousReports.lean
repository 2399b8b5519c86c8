import SLikeNet.AckTraffic

/-! A remote system that answers as it should is reported as malicious when, and only when, the
sender processes one of its answers up to the largest datagram number. -/

namespace SLikeNet

open BitStream

/-! ### When a report is made -/

namespace ReliabilityLayer

variable {s : ReliabilityLayer}

/-- The datagrams are processed up to a range that ends with the largest number. -/
def ReachesMaximum (s : ReliabilityLayer) (ranges : RangeList) : Prop :=
  s.datagramHistory ≠ [] ∧ ∃ before r after, ranges.ranges = before ++ r :: after ∧
    r.maxIndex = .ofNat 0xFFFFFFFF ∧ ∀ d ∈ before.flatMap RangeNode.numbers, s.inWindow d = true

theorem rangesLoop_malicious_iff {onDatagram : ReliabilityLayer → Uint24 → ReliabilityLayer}
    (hwindow : ∀ s d, SameWindow s (onDatagram s d)) {ranges : List RangeNode} :
    (rangesLoop onDatagram s ranges).1 = .malicious ↔ ∃ before r after,
      ranges = before ++ r :: after ∧ r.maxIndex = .ofNat 0xFFFFFFFF ∧
        ∀ d ∈ before.flatMap RangeNode.numbers, s.inWindow d = true := by
  induction ranges generalizing s with
  | nil =>
    constructor
    · intro h
      cases h
    · rintro ⟨before, r, after, heq, -⟩
      cases before <;> cases heq
  | cons n ranges ih =>
    rw [rangesLoop]
    by_cases hmax : n.maxIndex = .ofNat 0xFFFFFFFF
    · rw [if_pos hmax]
      constructor
      · intro _
        exact ⟨[], n, ranges, rfl, hmax, fun d hd => absurd hd List.not_mem_nil⟩
      · intro _
        rfl
    · rw [if_neg hmax, rangeLoop_eq hwindow]
      have hsame := sameWindow_foldl hwindow (s.processed n.numbers) s
      dsimp only
      cases hall : n.numbers.all s.inWindow with
      | false =>
        rw [if_pos (show (!false) = true from rfl)]
        constructor
        · intro h
          cases h
        · rintro ⟨before, r, after, heq, hr, hbefore⟩
          cases before with
          | nil => exact absurd ((List.cons.inj heq).1 ▸ hr) hmax
          | cons m before =>
            obtain ⟨rfl, -⟩ := List.cons.inj heq
            have hnumbers : n.numbers.all s.inWindow = true := List.all_eq_true.mpr fun d hd =>
              hbefore d (List.mem_flatMap.mpr ⟨n, List.mem_cons_self, hd⟩)
            rw [hall] at hnumbers
            cases hnumbers
      | true =>
        rw [if_neg (show ¬(!true) = true from Bool.false_ne_true), ih, hsame.inWindow_eq]
        constructor
        · rintro ⟨before, r, after, rfl, hr, hbefore⟩
          refine ⟨n :: before, r, after, rfl, hr, fun d hd => ?_⟩
          rw [List.flatMap_cons, List.mem_append] at hd
          exact hd.elim (List.all_eq_true.mp hall d) (hbefore d)
        · rintro ⟨before, r, after, heq, hr, hbefore⟩
          cases before with
          | nil => exact absurd ((List.cons.inj heq).1 ▸ hr) hmax
          | cons m before =>
            obtain ⟨rfl, rfl⟩ := List.cons.inj heq
            refine ⟨before, r, after, rfl, hr, fun d hd => hbefore d ?_⟩
            rw [List.flatMap_cons, List.mem_append]
            exact .inr hd

theorem handleAck_malicious_iff {incomingAcks : RangeList} :
    (s.handleAck incomingAcks).1 = .malicious ↔ s.ReachesMaximum incomingAcks := by
  have hsame : SameWindow s ((s.cover incomingAcks).reportAcked incomingAcks) := ⟨rfl, rfl⟩
  unfold handleAck ReachesMaximum
  dsimp only
  rw [show ((s.cover incomingAcks).reportAcked incomingAcks).datagramHistory = s.datagramHistory
    from rfl]
  split
  · rename_i hempty
    constructor
    · intro h
      cases h
    · intro h
      exact absurd hempty h.1
  · rename_i hne
    rw [rangesLoop_malicious_iff fun s d => (acknowledges_ackDatagram s d).window,
      hsame.inWindow_eq]
    exact (and_iff_right hne).symm

theorem sameWindow_nakDatagram (timeRead : ℕ) (s : ReliabilityLayer) (d : Uint24) :
    SameWindow s (s.nakDatagram timeRead d) := by
  obtain ⟨hhistory, hpop, -, -⟩ := DatagramWindow.mk.inj (datagramWindow_nakDatagram timeRead s d)
  exact ⟨congrArg List.length hhistory, hpop⟩

theorem handleNak_malicious_iff {incomingNAKs : RangeList} {timeRead : ℕ} :
    (s.handleNak incomingNAKs timeRead).1 = .malicious ↔ s.ReachesMaximum incomingNAKs := by
  unfold handleNak ReachesMaximum
  split
  · rename_i hempty
    constructor
    · intro h
      cases h
    · intro h
      exact absurd hempty h.1
  · rename_i hne
    rw [rangesLoop_malicious_iff fun s d => sameWindow_nakDatagram timeRead s d]
    exact (and_iff_right hne).symm

end ReliabilityLayer

/-! ### What the remote system sends can be read -/

theorem deserializeRanges_padded (rest : List Bool) :
    RangeList.deserializeRanges ⟨List.replicate 5 false ++ rest, 3⟩ =
      RangeList.deserializeRanges ⟨rest, 8⟩ := by
  have hpadded : (⟨List.replicate 5 false ++ rest, 3⟩ : Reader).align = ⟨rest, 8⟩ := rfl
  have haligned : (⟨rest, 8⟩ : Reader).align = ⟨rest, 8⟩ := Reader.align_of_aligned rfl
  rw [RangeList.deserializeRanges, RangeList.deserializeRanges, hpadded, haligned]

theorem readNegative_ranges {ranges : RangeList} {rest : List Bool}
    (h : RangeList.deserializeRanges ⟨rest, 8⟩ = some ranges.ranges) :
    readNegative (align DatagramHeaderFormat.nak.serialize ++ rest) = some ranges := by
  have hheader : DatagramHeaderFormat.deserialize
      (.ofStream (align DatagramHeaderFormat.nak.serialize ++ rest)) =
        (some .nak, ⟨List.replicate 5 false ++ rest, 3⟩) := rfl
  rw [readNegative, hheader]
  exact RangeList.deserialize_eq ((deserializeRanges_padded rest).trans h)

theorem readNegative_serialize {maxBits : ℕ} (hmax : maxBits ≤ 8 * 1492) (naks : RangeList) :
    (readNegative (naks.serialize DatagramHeaderFormat.nak.serialize maxBits).1).isSome := by
  obtain ⟨rest, hrest⟩ := RangeList.written_append maxBits 0 naks.ranges
  have hasc := naks.ascending
  rw [hrest] at hasc
  have hlen := RangeList.length_written_lt hmax naks.ranges
  have hbits := @RangeList.deserializeRanges_bits _ (ascending_append.mp hasc).1 hlen 8
    (Nat.mod_self 8) []
  rw [List.append_nil] at hbits
  have hwritten : (naks.serialize DatagramHeaderFormat.nak.serialize maxBits).1 =
      align DatagramHeaderFormat.nak.serialize ++
        (toBits 16 (RangeList.written maxBits 0 naks.ranges).length ++
          (RangeList.written maxBits 0 naks.ranges).flatMap RangeNode.bits) := by
    rw [RangeList.serialize, RangeNode.foldl_write rfl]
    simp only [Nat.mod_eq_of_lt hlen, List.nil_append, List.append_assoc]
  rw [hwritten, @readNegative_ranges ⟨_, (ascending_append.mp hasc).1⟩ _ hbits]
  rfl

/-! ### Runs -/

theorem Mtu.le_maxDatagramSize (mtu : Mtu) :
    81 ≤ mtu.maxDatagramSizeExcludingMessageHeaderBits := by
  have := mtu.le_bytes
  unfold Mtu.maxDatagramSizeExcludingMessageHeaderBits
    Mtu.maxDatagramSizeExcludingMessageHeaderBytes
  omega

theorem Mtu.maxDatagramSize_le (mtu : Mtu) :
    mtu.maxDatagramSizeExcludingMessageHeaderBits ≤ 8 * 1492 := by
  have := mtu.bytes_le
  unfold Mtu.maxDatagramSizeExcludingMessageHeaderBits
    Mtu.maxDatagramSizeExcludingMessageHeaderBytes
  omega

namespace AckTraffic

variable {t : AckTraffic}

/-- Everything that the remote system has sent can be read. -/
structure Sound (t : AckTraffic) : Prop where
  acks : ∀ stream ∈ t.acks, (readAcknowledgement stream).isSome
  naks : ∀ stream ∈ t.naks, (readNegative stream).isSome

theorem sound_initial (mtu remoteMtu : Mtu)
    (lastUpdateTime timeLastDatagramArrived timeoutTime : ℕ) :
    (initial mtu remoteMtu lastUpdateTime timeLastDatagramArrived timeoutTime).Sound :=
  ⟨fun _ hs => absurd hs List.not_mem_nil, fun _ hs => absurd hs List.not_mem_nil⟩

theorem Sound.step (h : t.Sound) (e : TrafficEvent) : (t.step e).Sound := by
  cases e with
  | send input => exact ⟨h.acks, h.naks⟩
  | update input => exact ⟨h.acks, h.naks⟩
  | setUnreliableTimeout timeoutMS => exact ⟨h.acks, h.naks⟩
  | arrives datagram =>
    rw [AckTraffic.step]
    split
    · exact ⟨h.acks, h.naks⟩
    · exact h
  | sendACKs =>
    refine ⟨fun stream hs => ?_, h.naks⟩
    rcases List.mem_append.mp hs with hs | hs
    · exact h.acks stream hs
    · exact (sendACKsLoop_spec t.peer.mtu.le_maxDatagramSize t.peer.mtu.maxDatagramSize_le
        (Nat.le_refl _)).2.accepted stream hs
  | sendNAKs =>
    refine ⟨h.acks, fun stream hs => ?_⟩
    rcases List.mem_append.mp hs with hs | hs
    · exact h.naks stream hs
    · rw [SLikeNet.sendNAKs] at hs
      split at hs
      · obtain rfl := List.mem_singleton.mp hs
        exact readNegative_serialize t.peer.mtu.maxDatagramSize_le _
      · cases hs
  | ack datagram timeMS =>
    rw [AckTraffic.step]
    split
    · exact h
    · exact ⟨h.acks, h.naks⟩
  | nak datagram timeRead timeMS =>
    rw [AckTraffic.step]
    split
    · exact h
    · exact ⟨h.acks, h.naks⟩

/-- The sender does not process a datagram of the remote system up to the largest number. -/
def MeetsStep (t : AckTraffic) : TrafficEvent → Prop
  | .ack datagram _ => ∀ stream incomingAcks, t.acks[datagram]? = some stream →
    readAcknowledgement stream = some incomingAcks → ¬t.sender.ReachesMaximum incomingAcks
  | .nak datagram _ _ => ∀ stream incomingNAKs, t.naks[datagram]? = some stream →
    readNegative stream = some incomingNAKs → ¬t.sender.ReachesMaximum incomingNAKs
  | _ => True

/-- No step of a run does. -/
def Meets (t : AckTraffic) : List TrafficEvent → Prop
  | [] => True
  | e :: events => t.MeetsStep e ∧ (t.step e).Meets events

theorem malicious_handled {result : Verdict × ReliabilityLayer} :
    (t.handled result).malicious = true ↔ t.malicious = true ∨ result.1 = .malicious := by
  rw [handled, Bool.or_eq_true, decide_eq_true_iff]

theorem malicious_step (h : t.Sound) (e : TrafficEvent) :
    (t.step e).malicious = true ↔ t.malicious = true ∨ ¬t.MeetsStep e := by
  cases e with
  | send input => exact ⟨.inl, fun h => h.resolve_right fun hn => hn trivial⟩
  | update input => exact ⟨.inl, fun h => h.resolve_right fun hn => hn trivial⟩
  | setUnreliableTimeout timeoutMS => exact ⟨.inl, fun h => h.resolve_right fun hn => hn trivial⟩
  | sendACKs => exact ⟨.inl, fun h => h.resolve_right fun hn => hn trivial⟩
  | sendNAKs => exact ⟨.inl, fun h => h.resolve_right fun hn => hn trivial⟩
  | arrives datagram =>
    have hsame : (t.step (.arrives datagram)).malicious = t.malicious := by
      rw [AckTraffic.step]
      split <;> rfl
    rw [hsame]
    exact ⟨.inl, fun h => h.resolve_right fun hn => hn trivial⟩
  | ack datagram timeMS =>
    rw [AckTraffic.step, MeetsStep]
    cases hsent : t.acks[datagram]? with
    | none => simp
    | some stream =>
      obtain ⟨incomingAcks, hread⟩ := Option.isSome_iff_exists.mp
        (h.acks stream (List.mem_of_getElem? hsent))
      have hverdict : (t.sender.receiveAck stream timeMS).1 = .malicious ↔
          t.sender.ReachesMaximum incomingAcks := by
        rw [ReliabilityLayer.receiveAck, hread]
        exact ReliabilityLayer.handleAck_malicious_iff
      rw [malicious_handled, hverdict]
      simp [hread]
  | nak datagram timeRead timeMS =>
    rw [AckTraffic.step, MeetsStep]
    cases hsent : t.naks[datagram]? with
    | none => simp
    | some stream =>
      obtain ⟨incomingNAKs, hread⟩ := Option.isSome_iff_exists.mp
        (h.naks stream (List.mem_of_getElem? hsent))
      have hverdict : (t.sender.receiveNak stream timeRead timeMS).1 = .malicious ↔
          t.sender.ReachesMaximum incomingNAKs := by
        rw [ReliabilityLayer.receiveNak, hread]
        dsimp only
        split
        · rename_i hempty
          constructor
          · intro hm
            cases hm
          · intro hm
            exact absurd hempty hm.1
        · exact ReliabilityLayer.handleNak_malicious_iff
      rw [malicious_handled, hverdict]
      simp [hread]

theorem malicious_run (h : t.Sound) (events : List TrafficEvent) :
    (events.foldl AckTraffic.step t).malicious = true ↔ t.malicious = true ∨ ¬t.Meets events := by
  induction events generalizing t with
  | nil => exact ⟨.inl, fun h => h.resolve_right fun hn => hn trivial⟩
  | cons e events ih =>
    rw [List.foldl_cons, ih (h.step e), malicious_step h, Meets, not_and_or, or_assoc]

/-- A remote system that only acknowledges what has arrived and asks for what was skipped is
reported in the runs in which the sender processes one of its datagrams up to the largest number,
and in no others. -/
theorem conforming_not_malicious (mtu remoteMtu : Mtu)
    (lastUpdateTime timeLastDatagramArrived timeoutTime : ℕ) (events : List TrafficEvent) :
    (events.foldl AckTraffic.step (initial mtu remoteMtu lastUpdateTime timeLastDatagramArrived
        timeoutTime)).malicious = false ↔
      (initial mtu remoteMtu lastUpdateTime timeLastDatagramArrived timeoutTime).Meets events := by
  rw [← Bool.not_eq_true, malicious_run (sound_initial ..), not_or, not_not]
  exact and_iff_right Bool.false_ne_true

/-! ### The largest number is reached -/

/-- Rounds with a message of one byte each. -/
def rounds : ℕ → List TrafficEvent
  | 0 => []
  | n + 1 => rounds n ++ [.send (ReliabilityLayer.oneByte .unreliable n),
    .update (ReliabilityLayer.nextUpdate n)]

/-- The sender after `n` rounds, each of which has sent a datagram. -/
structure AfterRounds (n : ℕ) (s : ReliabilityLayer) : Prop where
  quiet : s.Quiet
  wire_length : s.history.wire.length = n
  history_length : s.datagramHistory.length = min n 513
  lastUpdateTime : s.lastUpdateTime = 1000 * n

theorem AfterRounds.round {n : ℕ} {s : ReliabilityLayer} (h : AfterRounds n s)
    (hn : n < 16777216) : AfterRounds (n + 1)
      ((s.send (ReliabilityLayer.oneByte .unreliable n)).2.updateInternal
        (ReliabilityLayer.nextUpdate n)) := by
  have htime : (ReliabilityLayer.nextUpdate n).time = 1000 * (n + 1) :=
    Nat.mod_eq_of_lt (by omega)
  have hu : ReliabilityLayer.Unlimited (ReliabilityLayer.nextUpdate n) :=
    ⟨show (0 : ℤ) < 1000 by decide, rfl⟩
  obtain ⟨hsent, hreliability, hclock⟩ := h.quiet.round
    (i := ReliabilityLayer.oneByte .unreliable n) rfl hu
    (by rw [htime, h.lastUpdateTime]; omega) (by rw [h.history_length]; exact Nat.min_le_right _ _)
  rw [htime] at hclock
  obtain ⟨htimeout, hlast⟩ := Prod.mk.inj hclock
  obtain ⟨hhistory, -, -, hwire⟩ := ReliabilityLayer.DatagramWindow.mk.inj
    (ReliabilityLayer.datagramWindow_send s (ReliabilityLayer.oneByte .unreliable n))
  refine ⟨⟨?_, hsent.queue, htimeout⟩, ?_, ?_, hlast⟩
  · have hinv := hsent.inv
    rw [hreliability] at hinv
    exact hinv
  · rw [hsent.wire_eq, hwire, List.length_append, h.wire_length]
    rfl
  · rw [hsent.length_eq, hhistory, h.history_length]
    omega

theorem rounds_spec (mtu remoteMtu : Mtu) (timeLastDatagramArrived timeoutTime : ℕ) {n : ℕ}
    (hn : n ≤ 16777216) : ∃ s, AfterRounds n s ∧
      (rounds n).foldl AckTraffic.step
          (initial mtu remoteMtu 0 timeLastDatagramArrived timeoutTime) =
        { initial mtu remoteMtu 0 timeLastDatagramArrived timeoutTime with sender := s } := by
  induction n with
  | zero => exact ⟨_, ⟨⟨ReliabilityLayer.initial_inv _ _ _ _, rfl, rfl⟩, rfl, rfl, rfl⟩, rfl⟩
  | succ n ih =>
    obtain ⟨s, hafter, hrun⟩ := ih (by omega)
    refine ⟨_, hafter.round (by omega), ?_⟩
    rw [rounds, List.foldl_append, hrun]
    rfl

/-- The datagram with the largest number arrives and is acknowledged. -/
def largestEvents (datagrams : ℕ) : List TrafficEvent :=
  rounds datagrams ++ [.arrives (datagrams - 1), .sendACKs, .ack 0 1]

/-- The remote system after the first and only datagram that arrives, the one with the largest
number. -/
def largestPeer (remoteMtu : Mtu) : RemotePeer :=
  (⟨remoteMtu, .empty, .empty, 0⟩ : RemotePeer).gotDatagram (.ofNat 16777215)

/-- The acknowledgement that it sends. -/
def largestAcks (remoteMtu : Mtu) : List (List Bool) :=
  (SLikeNet.sendACKs remoteMtu.maxDatagramSizeExcludingMessageHeaderBits
    (largestPeer remoteMtu).acknowlegements).1

theorem readAcknowledgement_largestAcks : ∃ stream incomingAcks,
    (largestAcks ⟨100, by decide, by decide⟩)[0]? = some stream ∧
      readAcknowledgement stream = some incomingAcks ∧
      incomingAcks.ranges = [⟨.ofNat 16777215, .ofNat 16777215⟩] := by
  have hread : ((largestAcks ⟨100, by decide, by decide⟩)[0]?.bind readAcknowledgement).map
      RangeList.ranges = some [⟨.ofNat 16777215, .ofNat 16777215⟩] := by decide +kernel
  obtain ⟨incomingAcks, hbind, hranges⟩ := Option.map_eq_some_iff.mp hread
  obtain ⟨stream, hstream, hincoming⟩ := Option.bind_eq_some_iff.mp hbind
  exact ⟨stream, incomingAcks, hstream, hincoming, hranges⟩

theorem malicious_largest {s : ReliabilityLayer} (h : AfterRounds 16777216 s) :
    ([.arrives (16777216 - 1), .sendACKs, .ack 0 1].foldl AckTraffic.step
      { initial ⟨100, by decide, by decide⟩ ⟨100, by decide, by decide⟩ 0 0 10000 with
        sender := s }).malicious = true := by
  obtain ⟨stream, incomingAcks, hstream, hread, hranges⟩ := readAcknowledgement_largestAcks
  have harrives : ({ initial ⟨100, by decide, by decide⟩ ⟨100, by decide, by decide⟩ 0 0 10000 with
      sender := s } : AckTraffic).step (.arrives (16777216 - 1)) =
        ⟨s, largestPeer ⟨100, by decide, by decide⟩, [], [], false⟩ := by
    rw [AckTraffic.step]
    have hlast : 16777216 - 1 < s.history.wire.length := by
      rw [h.wire_length]
      omega
    exact if_pos hlast
  have hreaches : s.ReachesMaximum incomingAcks := by
    refine ⟨List.ne_nil_of_length_pos ?_, [], _, [], hranges, by decide +kernel, ?_⟩
    · rw [h.history_length]
      decide
    · intro d hd
      cases hd
  rw [List.foldl_cons, harrives, List.foldl_cons, List.foldl_cons, List.foldl_nil]
  have hsends : (⟨s, largestPeer ⟨100, by decide, by decide⟩, [], [], false⟩ : AckTraffic).step
      .sendACKs = ⟨s, { largestPeer ⟨100, by decide, by decide⟩ with acknowlegements := _ },
        largestAcks ⟨100, by decide, by decide⟩, [], false⟩ := rfl
  rw [hsends, AckTraffic.step]
  dsimp only
  rw [hstream]
  refine malicious_handled.mpr (.inr ?_)
  rw [ReliabilityLayer.receiveAck, hread]
  exact ReliabilityLayer.handleAck_malicious_iff.mpr hreaches

/-- A sender that has used all its datagram numbers reports the acknowledgement of the last one. -/
theorem largest_reported : ¬∀ (mtu remoteMtu : Mtu)
    (lastUpdateTime timeLastDatagramArrived timeoutTime : ℕ) (events : List TrafficEvent),
      (events.foldl AckTraffic.step (initial mtu remoteMtu lastUpdateTime timeLastDatagramArrived
        timeoutTime)).malicious = false := by
  intro hall
  obtain ⟨s, hafter, hrun⟩ := rounds_spec ⟨100, by decide, by decide⟩ ⟨100, by decide, by decide⟩
    0 10000 (Nat.le_refl 16777216)
  have hnone := hall ⟨100, by decide, by decide⟩ ⟨100, by decide, by decide⟩ 0 0 10000
    (largestEvents 16777216)
  rw [largestEvents, List.foldl_append, hrun, malicious_largest hafter] at hnone
  exact Bool.false_ne_true hnone.symm

end AckTraffic

end SLikeNet
