import SLikeNet.ClockDifferential

/-! Two systems that connect to each other: a peer on each side with a clock of its own, and what
is on the way between them. Next to the peers the state keeps when each message was sent, and
which pongs each slot has processed. -/

namespace SLikeNet

open RecentRing
open RemoteSystems (Inv)

inductive Side
  | left
  | right
deriving DecidableEq

def Side.other : Side → Side
  | .left => .right
  | .right => .left

theorem Side.other_other (side : Side) : side.other.other = side := by cases side <;> rfl

/-- The two systems: how each is configured, the address by which the other knows it, and how far
its clock is ahead. -/
structure LinkConfig where
  cfg : Side → PeerConfig
  address : Side → SystemAddress
  assigned : ∀ side, address side ≠ .unassigned
  ahead : Side → ℕ

def LinkConfig.clock (c : LinkConfig) (side : Side) (now : ℕ) : UInt64 :=
  UInt64.ofNat (now + c.ahead side)

/-- A message on its way, when it was sent, and when the message that it answers was sent. -/
structure Letter where
  systemAddress : SystemAddress
  data : List UInt8
  sentAt : ℕ
  answers : Option ℕ
deriving DecidableEq

structure Pong where
  pingSent : ℕ
  pongSent : ℕ
  received : ℕ
deriving DecidableEq

def Pong.roundTrip (pong : Pong) : ℕ := pong.received - pong.pingSent

structure Link where
  now : ℕ
  peer : Side → RakPeer
  letters : Side → List Letter
  datagrams : Side → List (SystemAddress × List UInt8)
  /-- The pongs that a slot has processed since it was assigned. -/
  pongs : Side → ℕ → List Pong

inductive LinkInput
  | wait (ms : ℕ)
  | act (side : Side) (input : PeerInput)
  /-- Datagram `k` of the other system arrives. -/
  | receive (side : Side) (k : ℕ) (beyond : ℕ → UInt8) (env : ReceiveEnv)
  /-- Message `k` of the other system is delivered to its slot. -/
  | deliver (side : Side) (i k : ℕ) (uninitialised : Uninitialised)

/-- What was sent is on its way. -/
def RakPeer.clearSent (s : RakPeer) : RakPeer := { s with sent := [] }

namespace Link

def initial : Link where
  now := 0
  peer _ := .initial
  letters _ := []
  datagrams _ := []
  pongs _ _ := []

def letterOf (now : ℕ) (answered : Option Letter) : Sent → Option Letter
  | .message systemAddress data => some ⟨systemAddress, data, now, answered.map Letter.sentAt⟩
  | .datagram _ _ => none

def datagramOf : Sent → Option (SystemAddress × List UInt8)
  | .message _ _ => none
  | .datagram systemAddress data => some (systemAddress, data)

def pongOf (now : ℕ) (letter : Letter) : Option Pong :=
  letter.answers.map fun pingSent => ⟨pingSent, letter.sentAt, now⟩

/-- A slot that is assigned starts anew, and one that moves its write index has processed a pong. -/
def pongsAfter (before after : Slot) (pong : Option Pong) (pongs : List Pong) : List Pong :=
  if after.isActive = true ∧ before.isActive = false then []
  else if after.pingAndClockDifferentialWriteIndex = before.pingAndClockDifferentialWriteIndex then
    pongs
  else pongs ++ pong.toList

/-- One input to one side, and the message of the other system that it is, if any. -/
def run (c : LinkConfig) (l : Link) (side : Side) (input : PeerInput) (letter : Option Letter) :
    Link :=
  let s := (l.peer side).clearSent.step (c.cfg side) input
  { l with
    peer := Function.update l.peer side s
    letters := Function.update l.letters side
      (l.letters side ++ s.sent.filterMap (letterOf l.now letter))
    datagrams := Function.update l.datagrams side
      (l.datagrams side ++ s.sent.filterMap datagramOf)
    pongs := Function.update l.pongs side fun i =>
      pongsAfter ((l.peer side).slot i) (s.slot i) (letter.bind (pongOf l.now)) (l.pongs side i) }

/-- Datagrams and messages arrive in any order, late, repeatedly or never. -/
def step (c : LinkConfig) (l : Link) : LinkInput → Link
  | .wait ms => { l with now := l.now + ms }
  | .act side input => l.run c side input none
  | .receive side k beyond env =>
    match (l.datagrams side.other)[k]? with
    | none => l
    | some (systemAddress, data) =>
      if h : systemAddress = c.address side ∧ 0 < data.length then
        l.run c side (.datagram ⟨c.address side.other, c.assigned side.other⟩ ⟨data, beyond, h.2⟩
          { env with time := c.clock side l.now }) none
      else l
  | .deliver side i k uninitialised =>
    match (l.letters side.other)[k]? with
    | none => l
    | some letter =>
      if letter.systemAddress = c.address side ∧
          (l.peer side).addressOf i = c.address side.other then
        l.run c side (.message i letter.data ⟨c.clock side l.now, uninitialised⟩) (some letter)
      else l

/-! ### Conforming systems -/

/-- The message is one of the user's. -/
def UserData (data : List UInt8) : Prop := data.head?.all RakPeer.isUserMessage = true

/-- An input that is not a datagram or a message between the two peers: the clock is right, and
what comes from the address of the other system is from its user. -/
def ConformingInput (c : LinkConfig) (l : Link) (side : Side) : PeerInput → Prop
  | .datagram sender _ env =>
    env.time = c.clock side l.now ∧ sender.systemAddress ≠ c.address side.other
  | .update _ env => env.time = c.clock side l.now
  | .message i data env =>
    env.time = c.clock side l.now ∧
      ((l.peer side).addressOf i = c.address side.other → UserData data)
  | .connect _ | .cancelConnectionAttempt _ | .notifyAndFlagForShutdown _ | .closeConnection _
  | .maliciousDatagram _ | .requestConnections _ _ => True

def Conforming (c : LinkConfig) (l : Link) : LinkInput → Prop
  | .act side input => ConformingInput c l side input
  | .wait _ | .receive _ _ _ _ | .deliver _ _ _ _ => True

/-- The message that is delivered has a property. -/
def Delivers (l : Link) (p : Side → ℕ → Letter → Uninitialised → Bool) : LinkInput → Prop
  | .deliver side i k uninitialised =>
    (l.letters side.other)[k]?.any (fun letter => p side i letter uninitialised) = true
  | .wait _ | .act _ _ | .receive _ _ _ _ => False

/-- The other system is answered with a time that is not that of its request. -/
def EchoesWrongTime (l : Link) : LinkInput → Prop :=
  l.Delivers fun side i letter uninitialised =>
    decide (((l.peer side).slot i).isActive = true ∧
      letter.data.head? = some MessageID.connectionRequest ∧
      ¬ RakPeer.ReadsPassword ((l.peer side).slot i).connectMode ∧
      RakPeer.TakesMessages ((l.peer side).slot i).connectMode ∧
      RakPeer.requestTime letter.data ≠
        some (RakPeer.echoedTimestamp letter.data uninitialised))

/-- The 64 bits of a clock do not suffice for one round trip. -/
def ClockWraps (c : LinkConfig) (l : Link) : LinkInput → Prop :=
  l.Delivers fun side _ letter _ =>
    letter.answers.any fun pingSent =>
      decide ((pingSent + c.ahead side) / 2 ^ 64 ≠ (l.now + c.ahead side) / 2 ^ 64)

instance (c : LinkConfig) (l : Link) (side : Side) (input : PeerInput) :
    Decidable (ConformingInput c l side input) :=
  match input with
  | .datagram _ _ _ => inferInstanceAs (Decidable (_ ∧ _))
  | .update _ _ => inferInstanceAs (Decidable (_ = _))
  | .message i data _ =>
    inferInstanceAs (Decidable (_ ∧ ((l.peer side).addressOf i = c.address side.other →
      data.head?.all RakPeer.isUserMessage = true)))
  | .connect _ | .cancelConnectionAttempt _ | .notifyAndFlagForShutdown _ | .closeConnection _
  | .maliciousDatagram _ | .requestConnections _ _ => isTrue trivial

instance (c : LinkConfig) (l : Link) (input : LinkInput) : Decidable (Conforming c l input) :=
  match input with
  | .act side input => inferInstanceAs (Decidable (ConformingInput c l side input))
  | .wait _ | .receive _ _ _ _ | .deliver _ _ _ _ => isTrue trivial

instance (l : Link) (p : Side → ℕ → Letter → Uninitialised → Bool) (input : LinkInput) :
    Decidable (Delivers l p input) :=
  match input with
  | .deliver _ _ _ _ => inferInstanceAs (Decidable (_ = true))
  | .wait _ | .act _ _ | .receive _ _ _ _ => isFalse not_false

instance (l : Link) (input : LinkInput) : Decidable (EchoesWrongTime l input) :=
  inferInstanceAs (Decidable (Delivers l _ input))

instance (c : LinkConfig) (l : Link) (input : LinkInput) : Decidable (ClockWraps c l input) :=
  inferInstanceAs (Decidable (Delivers l _ input))

/-- The pong of a message is accurate. -/
structure Genuine (c : LinkConfig) (side : Side) (pong : Pong) : Prop where
  answered : pong.pingSent ≤ pong.pongSent
  returned : pong.pongSent ≤ pong.received
  noWrap : (pong.pingSent + c.ahead side) / 2 ^ 64 = (pong.received + c.ahead side) / 2 ^ 64

/-- What a pong is recorded as. -/
def entry (c : LinkConfig) (side : Side) (pong : Pong) : PingAndClockDifferential :=
  RakPeer.pingOf (c.clock side pong.pingSent) (c.clock side.other pong.pongSent)
    (c.clock side pong.received)

/-- The times in a message are those at which it and the message that it answers were sent. -/
structure Honest (c : LinkConfig) (side : Side) (letter : Letter) : Prop where
  request : letter.data.head? = some MessageID.connectionRequest →
    RakPeer.requestTime letter.data = some (c.clock side letter.sentAt)
  ping : letter.data.head? = some MessageID.connectedPing →
    RakPeer.pingTime letter.data = some (toBytes 8 (c.clock side letter.sentAt).toNat)
  answer : ∀ u times, RakPeer.answerTimes letter.data u = some times →
    ∃ pingSent, letter.answers = some pingSent ∧ pingSent ≤ letter.sentAt ∧
      times = (c.clock side.other pingSent, c.clock side letter.sentAt)

structure Sound (c : LinkConfig) (l : Link) : Prop where
  table : ∀ side, Inv (c.cfg side) (l.peer side).systems
  honest : ∀ side, ∀ letter ∈ l.letters side, letter.systemAddress = c.address side.other →
    Honest c side letter ∧ letter.sentAt ≤ l.now
  recorded : ∀ side i, (l.peer side).addressOf i = c.address side.other →
    Holds ((l.peer side).slot i).pingAndClockDifferential RakPeer.unwritten
      ((l.peer side).slot i).pingAndClockDifferentialWriteIndex
      ((l.pongs side i).map (entry c side))
  genuine : ∀ side i, (l.peer side).addressOf i = c.address side.other →
    ∀ pong ∈ l.pongs side i, Genuine c side pong

/-! ### One step -/

theorem pongsAfter_same {before after : Slot} (pong : Option Pong) (pongs : List Pong)
    (hactive : after.isActive = true → before.isActive = true)
    (hindex : after.pingAndClockDifferentialWriteIndex = before.pingAndClockDifferentialWriteIndex) :
    pongsAfter before after pong pongs = pongs := by
  unfold pongsAfter
  rw [if_neg, if_pos hindex]
  rintro ⟨hafter, hbefore⟩
  exact Bool.noConfusion ((hactive hafter).symm.trans hbefore)

theorem nextWriteIndex_ne (k : Fin pingTimesArraySize) : RakPeer.nextWriteIndex k ≠ k := by
  revert k
  decide

theorem pongsAfter_recorded {before after : Slot} (pong : Option Pong) (pongs : List Pong)
    (hactive : before.isActive ≠ false)
    (hindex : after.pingAndClockDifferentialWriteIndex =
      RakPeer.nextWriteIndex before.pingAndClockDifferentialWriteIndex) :
    pongsAfter before after pong pongs = pongs ++ pong.toList := by
  unfold pongsAfter
  rw [if_neg, if_neg]
  · rw [hindex]
    exact nextWriteIndex_ne _
  · exact fun hassigned => hactive hassigned.2

theorem mem_letters_run {c : LinkConfig} {l : Link} (h : Sound c l) {side : Side}
    {input : PeerInput} {answered : Option Letter} {letter : Letter}
    (hmem : letter ∈ (l.run c side input answered).letters side) :
    letter ∈ l.letters side ∨
      RakPeer.Sends (c.cfg side) (l.peer side).clearSent input letter.systemAddress letter.data ∧
        letter.sentAt = l.now ∧ letter.answers = answered.map Letter.sentAt := by
  have hletters : (l.run c side input answered).letters side = l.letters side ++
      ((l.peer side).clearSent.step (c.cfg side) input).sent.filterMap (letterOf l.now answered) :=
    Function.update_self side _ _
  rw [hletters, List.mem_append] at hmem
  refine hmem.imp_right fun hnew => ?_
  obtain ⟨m, hm, hletter⟩ := List.mem_filterMap.mp hnew
  cases m with
  | datagram sa data => exact absurd hletter (Option.some_ne_none letter).symm
  | message sa data =>
    obtain rfl := Option.some.inj hletter
    rcases RakPeer.sendsOnly_step (s := (l.peer side).clearSent) (h.table side) input sa data hm with
      hold | hsends
    · exact absurd hold List.not_mem_nil
    · exact ⟨hsends, rfl, rfl⟩

/-- What an input must satisfy for the state to stay sound: what it sends to the other system is
honest, and a pong of the other system is recorded as it was. -/
structure KeepsSound (c : LinkConfig) (l : Link) (side : Side) (input : PeerInput)
    (answered : Option Letter) : Prop where
  honest : ∀ sa data, RakPeer.Sends (c.cfg side) (l.peer side).clearSent input sa data →
    sa = c.address side.other → Honest c side ⟨sa, data, l.now, answered.map Letter.sentAt⟩
  recorded : ∀ i data env times, input = .message i data env →
    (l.peer side).addressOf i = c.address side.other →
      RakPeer.answerTimes data env.uninitialised = some times →
        ∃ pong, answered.bind (pongOf l.now) = some pong ∧ Genuine c side pong ∧
          RakPeer.pingOf times.1 times.2 env.time = entry c side pong

theorem Sound.run_recorded {c : LinkConfig} {l : Link} (h : Sound c l) {side : Side}
    {input : PeerInput} {answered : Option Letter} (hkeeps : KeepsSound c l side input answered)
    {i : ℕ} (haddress : ((l.run c side input answered).peer side).addressOf i =
      c.address side.other) :
    Holds (((l.run c side input answered).peer side).slot i).pingAndClockDifferential
        RakPeer.unwritten
        (((l.run c side input answered).peer side).slot i).pingAndClockDifferentialWriteIndex
        (((l.run c side input answered).pongs side i).map (entry c side)) ∧
      ∀ pong ∈ (l.run c side input answered).pongs side i, Genuine c side pong := by
  have hpeer : (l.run c side input answered).peer side =
      (l.peer side).clearSent.step (c.cfg side) input := Function.update_self side _ _
  have hpongs : (l.run c side input answered).pongs side i =
      pongsAfter ((l.peer side).clearSent.slot i)
        (((l.peer side).clearSent.step (c.cfg side) input).slot i)
        (answered.bind (pongOf l.now)) (l.pongs side i) :=
    congrFun (Function.update_self side _ l.pongs) i
  rw [hpeer] at haddress ⊢
  rw [hpongs]
  cases (RakPeer.slotStep (s := (l.peer side).clearSent) (h.table side) i input).pingStep with
  | same hsame hactive hpings hindex =>
    rw [pongsAfter_same _ _ hactive hindex, hpings, hindex]
    exact ⟨h.recorded side i (hsame.symm.trans haddress), h.genuine side i (hsame.symm.trans haddress)⟩
  | fresh hinactive hactive hpings hindex =>
    have hnil : pongsAfter ((l.peer side).clearSent.slot i)
        (((l.peer side).clearSent.step (c.cfg side) input).slot i)
        (answered.bind (pongOf l.now)) (l.pongs side i) = [] :=
      if_pos ⟨hactive, eq_false_of_ne_true hinactive⟩
    rw [hnil, hpings]
    exact ⟨holds_nil hindex, fun pong hmem => absurd hmem List.not_mem_nil⟩
  | recorded data env times hinput hactive hsame htimes hpings hindex =>
    have hother : (l.peer side).addressOf i = c.address side.other := hsame.symm.trans haddress
    obtain ⟨pong, hpong, hgenuine, hentry⟩ := hkeeps.recorded i data env times hinput hother htimes
    have hlive : ((l.peer side).clearSent.slot i).isActive = true := hactive
    rw [pongsAfter_recorded _ _ (ne_false_of_eq_true hlive) hindex, hpong, hpings, hentry, Option.toList_some,
      List.map_append]
    refine ⟨(h.recorded side i hother).record ?_ _, fun pong' hmem => ?_⟩
    · rw [hindex]
      rfl
    · rcases List.mem_append.mp hmem with hold | hnew
      · exact h.genuine side i hother pong' hold
      · rw [List.mem_singleton.mp hnew]
        exact hgenuine

theorem Sound.run {c : LinkConfig} {l : Link} (h : Sound c l) {side : Side} {input : PeerInput}
    {answered : Option Letter} (hkeeps : KeepsSound c l side input answered) :
    Sound c (l.run c side input answered) := by
  have hpeer : ∀ side', side' ≠ side →
      (l.run c side input answered).peer side' = l.peer side' :=
    fun side' hne => Function.update_of_ne hne _ _
  have hpongs : ∀ side', side' ≠ side →
      (l.run c side input answered).pongs side' = l.pongs side' :=
    fun side' hne => Function.update_of_ne hne _ _
  refine ⟨fun side' => ?_, fun side' letter hmem haddress => ?_, fun side' i haddress => ?_,
    fun side' i haddress => ?_⟩
  · rcases eq_or_ne side' side with rfl | hne
    · have hself : (l.run c side' input answered).peer side' =
          (l.peer side').clearSent.step (c.cfg side') input := Function.update_self side' _ _
      rw [hself]
      exact RakPeer.inv_step (s := (l.peer side').clearSent) (h.table side') input
    · rw [hpeer side' hne]
      exact h.table side'
  · rcases eq_or_ne side' side with rfl | hne
    · rcases mem_letters_run h hmem with hold | ⟨hsends, hsent, hanswers⟩
      · exact h.honest side' letter hold haddress
      · obtain ⟨sa, data, sentAt, answers⟩ := letter
        obtain rfl : sentAt = l.now := hsent
        obtain rfl : answers = answered.map Letter.sentAt := hanswers
        exact ⟨hkeeps.honest sa data hsends haddress, Nat.le_refl _⟩
    · have hold : (l.run c side input answered).letters side' = l.letters side' :=
        Function.update_of_ne hne _ _
      rw [hold] at hmem
      exact h.honest side' letter hmem haddress
  · rcases eq_or_ne side' side with rfl | hne
    · exact (h.run_recorded hkeeps haddress).1
    · rw [hpeer side' hne] at haddress ⊢
      rw [hpongs side' hne]
      exact h.recorded side' i haddress
  · rcases eq_or_ne side' side with rfl | hne
    · exact (h.run_recorded hkeeps haddress).2
    · rw [hpeer side' hne] at haddress
      rw [hpongs side' hne]
      exact h.genuine side' i haddress

end Link

end SLikeNet
