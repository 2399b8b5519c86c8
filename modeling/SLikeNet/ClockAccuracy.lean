import SLikeNet.NegotiatedMtu
import SLikeNet.TwoSystems

/-! `GetClockDifferential` between two systems is accurate to half the best ping, unless a request
for a connection is answered with another time than its own. -/

namespace SLikeNet

open RecentRing

namespace Link

variable {c : LinkConfig} {l : Link} {side : Side}

/-! ### The messages that are sent are honest -/

def answerIds : List UInt8 :=
  [MessageID.connectionRequestAccepted, MessageID.newIncomingConnection, MessageID.connectedPong]

theorem answerTimes_none {data : List UInt8} {id : UInt8} (hid : data.head? = some id)
    (hother : id ∉ answerIds) (u : Uninitialised) : RakPeer.answerTimes data u = none := by
  have hne : ∀ x ∈ answerIds, ¬ data.head? = some x := by
    intro x hx heq
    rw [hid] at heq
    exact hother (Option.some.inj heq ▸ hx)
  unfold RakPeer.answerTimes
  rw [if_neg (hne _ (by decide)), if_neg (hne _ (by decide)), if_neg (hne _ (by decide))]

theorem head_ne {data : List UInt8} {id x : UInt8} (hid : data.head? = some id) (hne : id ≠ x) :
    data.head? ≠ some x :=
  fun heq => hne (Option.some.inj (hid.symm.trans heq))

theorem honest_plain {letter : Letter} {id : UInt8} (hid : letter.data.head? = some id)
    (hrequest : id ≠ MessageID.connectionRequest) (hping : id ≠ MessageID.connectedPing)
    (hanswer : id ∉ answerIds) : Honest c side letter where
  request heq := absurd heq (head_ne hid hrequest)
  ping heq := absurd heq (head_ne hid hping)
  answer u _ htimes := absurd (htimes.symm.trans (answerTimes_none hid hanswer u))
    (Option.some_ne_none _)

theorem honest_request (sa : SystemAddress) (guid : RakNetGUID) (password : List UInt8) (now : ℕ)
    (answers : Option ℕ) :
    Honest c side ⟨sa, RakPeer.connectionRequestMessage guid (c.clock side now) password, now,
      answers⟩ where
  request _ := RakPeer.requestTime_connectionRequestMessage guid _ password
  ping heq := absurd (Option.some.inj heq) (by decide)
  answer u _ htimes := absurd (htimes.symm.trans (answerTimes_none rfl (by decide) u))
    (Option.some_ne_none _)

theorem honest_ping (sa : SystemAddress) (now : ℕ) (answers : Option ℕ) :
    Honest c side ⟨sa, RakPeer.connectedPingMessage (c.clock side now), now, answers⟩ where
  request heq := absurd (Option.some.inj heq) (by decide)
  ping _ := RakPeer.pingTime_connectedPingMessage _
  answer u _ htimes := absurd (htimes.symm.trans (answerTimes_none rfl (by decide) u))
    (Option.some_ne_none _)

theorem honest_answer {sa : SystemAddress} {data : List UInt8} {id : UInt8} {pingSent now : ℕ}
    (hid : data.head? = some id) (hrequest : id ≠ MessageID.connectionRequest)
    (hping : id ≠ MessageID.connectedPing) (hle : pingSent ≤ now)
    (htimes : ∀ u, RakPeer.answerTimes data u =
      some (c.clock side.other pingSent, c.clock side now)) :
    Honest c side ⟨sa, data, now, some pingSent⟩ where
  request heq := absurd heq (head_ne hid hrequest)
  ping heq := absurd heq (head_ne hid hping)
  answer u _ heq := ⟨pingSent, rfl, hle, Option.some.inj (heq.symm.trans (htimes u))⟩

theorem UserData.head_ne {data : List UInt8} (h : UserData data) {id : UInt8}
    (hid : data.head? = some id) (hnot : RakPeer.isUserMessage id = false) : False := by
  unfold UserData at h
  rw [hid] at h
  exact Bool.noConfusion (h.symm.trans hnot)

theorem isUserMessage_answer {id : UInt8} (h : id ∈ answerIds) :
    RakPeer.isUserMessage id = false := by
  rcases List.mem_cons.mp h with rfl | h
  · rfl
  rcases List.mem_cons.mp h with rfl | h
  · rfl
  · rw [List.mem_singleton.mp h]
    rfl

theorem mem_answerIds {data : List UInt8} {u : Uninitialised} {times : UInt64 × UInt64}
    (h : RakPeer.answerTimes data u = some times) : ∃ id ∈ answerIds, data.head? = some id := by
  unfold RakPeer.answerTimes at h
  split at h
  · rename_i hid
    exact ⟨_, by decide, hid⟩
  split at h
  · rename_i hid
    exact ⟨_, by decide, hid⟩
  split at h
  · rename_i hid
    exact ⟨_, by decide, hid⟩
  · exact absurd h (Option.some_ne_none _).symm

theorem keepsSound_datagram (sender : Sender) (d : Datagram) {env : ReceiveEnv}
    (htime : env.time = c.clock side l.now) :
    KeepsSound c l side (.datagram sender d env) none where
  honest sa data hsends _ := by
    cases hsends with
    | request _ _ _ password =>
      rw [htime]
      exact honest_request _ _ password l.now _
  recorded i data env times hinput := PeerInput.noConfusion hinput

theorem keepsSound_act {input : PeerInput} (hconforming : ConformingInput c l side input) :
    KeepsSound c l side input none where
  honest sa data hsends haddress := by
    cases hsends with
    | notification => exact honest_plain rfl (by decide) (by decide) (by decide)
    | request sender d env password =>
      exact (keepsSound_datagram sender d hconforming.1).honest _ _ (.request sender d env password)
        haddress
    | ping i env =>
      have htime : env.time = c.clock side l.now := hconforming
      rw [htime]
      exact honest_ping _ l.now _
    | refuse => exact honest_plain rfl (by decide) (by decide) (by decide)
    | accept i data env _ _ hid =>
      exact ((hconforming.2 haddress).head_ne hid (by decide)).elim
    | acceptAgain i data env _ _ hid =>
      exact ((hconforming.2 haddress).head_ne hid (by decide)).elim
    | confirm i data env hid => exact ((hconforming.2 haddress).head_ne hid (by decide)).elim
    | firstPing i data env =>
      rw [hconforming.1]
      exact honest_ping _ l.now _
    | pong i data env hid => exact ((hconforming.2 haddress).head_ne hid (by decide)).elim
  recorded i data env times hinput haddress htimes := by
    rw [hinput] at hconforming
    obtain ⟨id, hanswer, hid⟩ := mem_answerIds htimes
    exact ((hconforming.2 haddress).head_ne hid (isUserMessage_answer hanswer)).elim

theorem clock_other_other (now : ℕ) : c.clock side.other.other now = c.clock side now := by
  rw [Side.other_other]

theorem delivers_of_letter {p : Side → ℕ → Letter → Uninitialised → Bool} {i k : ℕ}
    {letter : Letter} {u : Uninitialised} (hletter : (l.letters side.other)[k]? = some letter)
    (hp : p side i letter u = true) : Delivers l p (.deliver side i k u) := by
  show (l.letters side.other)[k]?.any _ = true
  rw [hletter]
  exact hp

theorem keepsSound_deliver (h : Sound c l) {i k : ℕ} {letter : Letter} {u : Uninitialised}
    (hletter : (l.letters side.other)[k]? = some letter)
    (hto : letter.systemAddress = c.address side)
    (hecho : ¬ EchoesWrongTime l (.deliver side i k u))
    (hwrap : ¬ ClockWraps c l (.deliver side i k u)) :
    KeepsSound c l side (.message i letter.data ⟨c.clock side l.now, u⟩) (some letter) := by
  obtain ⟨honest, hsent⟩ := h.honest side.other letter (List.mem_of_getElem? hletter)
    (by rw [hto, Side.other_other])
  refine ⟨fun sa data hsends haddress => ?_, ?_⟩
  · cases hsends with
    | refuse => exact honest_plain rfl (by decide) (by decide) (by decide)
    | accept _ _ _ timestamp index hid htime =>
      obtain rfl : timestamp = c.clock side.other letter.sentAt :=
        Option.some.inj (htime.symm.trans (honest.request hid))
      exact honest_answer rfl (by decide) (by decide) hsent fun u' =>
        RakPeer.answerTimes_connectionRequestAcceptedMessage _ _ _ _ _ u'
    | acceptAgain _ _ _ index hactive hid hmode htakes =>
      have hsame : RakPeer.requestTime letter.data =
          some (RakPeer.echoedTimestamp letter.data u) := by
        by_contra hne
        refine hecho (delivers_of_letter hletter ?_)
        exact decide_eq_true ⟨hactive, hid, hmode, htakes, hne⟩
      have htime : RakPeer.echoedTimestamp letter.data u = c.clock side.other letter.sentAt :=
        Option.some.inj (hsame.symm.trans (honest.request hid))
      dsimp only
      rw [htime]
      exact honest_answer rfl (by decide) (by decide) hsent fun u' =>
        RakPeer.answerTimes_connectionRequestAcceptedMessage _ _ _ _ _ u'
    | confirm _ _ _ hid =>
      obtain ⟨pingSent, -, -, htimes⟩ :=
        honest.answer u _ (RakPeer.answerTimes_accepted u hid)
      dsimp only
      rw [htimes]
      exact honest_answer rfl (by decide) (by decide) hsent fun u' =>
        RakPeer.answerTimes_newIncomingConnectionMessage _ _ _ _ u'
    | firstPing => exact honest_ping _ l.now _
    | pong _ _ _ hid =>
      rw [honest.ping hid]
      exact honest_answer rfl (by decide) (by decide) hsent fun u' =>
        RakPeer.answerTimes_connectedPongMessage _ _ u'
  · intro i' data env times hinput _ htimes
    obtain ⟨rfl, rfl, rfl⟩ := PeerInput.message.inj hinput
    obtain ⟨pingSent, hanswers, hle, rfl⟩ := honest.answer u times htimes
    refine ⟨⟨pingSent, letter.sentAt, l.now⟩, ?_, ⟨hle, hsent, ?_⟩, ?_⟩
    · show letter.answers.map _ = _
      rw [hanswers]
      rfl
    · by_contra hne
      refine hwrap (delivers_of_letter hletter ?_)
      rw [hanswers]
      exact decide_eq_true hne
    · rw [clock_other_other]
      rfl

/-! ### Every run -/

theorem sound_initial (c : LinkConfig) : Sound c initial where
  table side := RemoteSystems.initial_inv (c.cfg side)
  honest _ _ hmem := absurd hmem List.not_mem_nil
  recorded side _ haddress := absurd haddress.symm (c.assigned side.other)
  genuine _ _ _ _ hmem := absurd hmem List.not_mem_nil

theorem Sound.wait (h : Sound c l) (ms : ℕ) : Sound c (l.step c (.wait ms)) where
  table := h.table
  honest side letter hmem haddress :=
    ⟨(h.honest side letter hmem haddress).1,
      Nat.le_trans (h.honest side letter hmem haddress).2 (Nat.le_add_right _ _)⟩
  recorded := h.recorded
  genuine := h.genuine

/-- A step of conforming systems that repeats no wrong time. -/
def KeepsTime (c : LinkConfig) (l : Link) (input : LinkInput) : Prop :=
  Conforming c l input ∧ ¬ EchoesWrongTime l input ∧ ¬ ClockWraps c l input

instance (c : LinkConfig) (l : Link) (input : LinkInput) : Decidable (KeepsTime c l input) :=
  inferInstanceAs (Decidable (_ ∧ _ ∧ _))

theorem Sound.step (h : Sound c l) {input : LinkInput} (hkeeps : KeepsTime c l input) :
    Sound c (l.step c input) := by
  cases input with
  | wait ms => exact h.wait ms
  | act side input => exact h.run (keepsSound_act hkeeps.1)
  | receive side k beyond env =>
    unfold Link.step
    dsimp only
    split
    · exact h
    · split
      · exact h.run (keepsSound_datagram _ _ rfl)
      · exact h
  | deliver side i k u =>
    unfold Link.step
    dsimp only
    split
    · exact h
    · rename_i letter hletter
      split
      · rename_i haddresses
        exact h.run (keepsSound_deliver h hletter haddresses.1 hkeeps.2.1 hkeeps.2.2)
      · exact h

/-- At most half of each round trip of the last pongs, and 1, lies between the estimate and the
difference of the clocks. -/
def Accurate (c : LinkConfig) (l : Link) (side : Side) : Prop :=
  ∀ systemIdentifier i,
    (l.peer side).getRemoteSystem (c.cfg side) systemIdentifier = some i →
    (l.peer side).addressOf i = c.address side.other → l.pongs side i ≠ [] →
    (∀ pong ∈ recent pingTimesArraySize (l.pongs side i), pong.roundTrip < 65535) →
    ∀ pong ∈ recent pingTimesArraySize (l.pongs side i),
      RakPeer.NearDifferential
        ((l.peer side).getClockDifferential (c.cfg side) systemIdentifier)
        (c.ahead side.other - c.ahead side) pong.roundTrip

theorem entry_near {pong : Pong} (h : Genuine c side pong) (hshort : pong.roundTrip < 65535) :
    (entry c side pong).pingTime.toNat = pong.roundTrip ∧
      RakPeer.NearDifferential (entry c side pong).clockDifferential
        (c.ahead side.other - c.ahead side) pong.roundTrip :=
  RakPeer.pingOf_near h.answered h.returned h.noWrap hshort

theorem Sound.accurate (h : Sound c l) (side : Side) : Accurate c l side := by
  intro systemIdentifier i hfind haddress hne hshort
  have hentry : ∀ pong ∈ recent pingTimesArraySize (l.pongs side i),
      (entry c side pong).pingTime.toNat = pong.roundTrip ∧
        RakPeer.NearDifferential (entry c side pong).clockDifferential
          (c.ahead side.other - c.ahead side) pong.roundTrip :=
    fun pong hpong => entry_near (h.genuine side i haddress pong (List.mem_of_mem_drop hpong))
      (hshort pong hpong)
  have hrecent : recent pingTimesArraySize ((l.pongs side i).map (entry c side)) =
      (recent pingTimesArraySize (l.pongs side i)).map (entry c side) := recent_map _ _
  have hshort' : ∀ e ∈ recent pingTimesArraySize ((l.pongs side i).map (entry c side)),
      e.pingTime < 65535 := by
    intro e he
    rw [hrecent] at he
    obtain ⟨pong, hpong, rfl⟩ := List.mem_map.mp he
    rw [UInt16.lt_iff_toNat_lt, (hentry pong hpong).1]
    exact hshort pong hpong
  obtain ⟨e, he, hresult, hleast⟩ := RakPeer.getClockDifferentialInt_spec
    (h.recorded side i haddress) (fun hnil => hne (List.map_eq_nil_iff.mp hnil)) hshort'
  rw [hrecent] at he hleast
  obtain ⟨best, hbest, rfl⟩ := List.mem_map.mp he
  intro pong hpong
  have hle : best.roundTrip ≤ pong.roundTrip := by
    rw [← (hentry best hbest).1, ← (hentry pong hpong).1, ← UInt16.le_iff_toNat_le]
    exact hleast _ (List.mem_map_of_mem hpong)
  have hdifferential : (l.peer side).getClockDifferential (c.cfg side) systemIdentifier =
      (entry c side best).clockDifferential := by
    unfold RakPeer.getClockDifferential
    rw [hfind]
    exact hresult
  rw [hdifferential]
  exact (hentry best hbest).2.mono hle

theorem clockDifferential_accurate (c : LinkConfig) (inputs : List LinkInput)
    (hkeeps : Transition.Along (step c) (KeepsTime c) initial inputs) (side : Side) :
    Accurate c (inputs.foldl (step c) initial) side :=
  (hkeeps.invariant (sound_initial c) fun _ _ h hgood => h.step hgood).accurate side

/-! ### Runs -/

/-- A password of 24 letters. -/
def longPassword : List UInt8 := List.replicate 24 112

def linkAddress : Side → SystemAddress
  | .left => ⟨1, 1⟩
  | .right => ⟨2, 2⟩

/-- Two systems with one password, the clock of one of which is 500 s ahead. -/
def twoSystems : LinkConfig where
  cfg side := { RakPeer.oneIncoming with
    incomingPassword := longPassword
    myGuid := match side with
      | .left => ⟨7⟩
      | .right => ⟨5⟩ }
  address := linkAddress
  assigned side := by cases side <;> decide
  ahead
    | .left => 0
    | .right => 500000

def connectTo (side : Side) : LinkInput :=
  .act side (.connect
    { systemAddress := linkAddress side.other
      passwordData := longPassword
      sendConnectionAttemptCount := 12
      timeBetweenSendConnectionAttemptsMS := 500
      timeMS := 900 })

def receiveNext (side : Side) (k : ℕ) : LinkInput :=
  .receive side k (fun _ => 0) RakPeer.plainReceive

def deliverNext (side : Side) (k : ℕ) : LinkInput :=
  .deliver side 0 k RakPeer.nothingUninitialised

/-- Both systems connect to each other. The reply to the request of one arrives first, and its
handshake is completed. -/
def crossConnect : List LinkInput :=
  [connectTo .left, connectTo .right,
    .act .left (.requestConnections 1000 fun _ => .sent),
    .act .right (.requestConnections 1000 fun _ => .sent),
    receiveNext .right 0, receiveNext .left 0, receiveNext .left 1, receiveNext .right 1,
    receiveNext .right 2, receiveNext .left 2, receiveNext .right 3, .wait 10,
    deliverNext .left 0, .wait 10, deliverNext .right 0, .wait 10, deliverNext .left 1]

theorem crossConnect_accurate :
    Accurate twoSystems (crossConnect.foldl (step twoSystems) initial) .left :=
  clockDifferential_accurate twoSystems crossConnect (by decide +kernel) .left

/-- The reply to the request of the other system is late. -/
def lateReply : List LinkInput :=
  [receiveNext .left 3, .wait 10, deliverNext .right 2, .wait 10, deliverNext .left 3]

def rightSystem : AddressOrGUID := ⟨.unassigned, linkAddress .right⟩

/-- The request that follows the late reply is answered with bytes of the password for its time,
which counts as a ping of no time at all. -/
theorem late_reply_misleads :
    ¬ ∀ (c : LinkConfig) (inputs : List LinkInput),
      Transition.Along (step c) (Conforming c) initial inputs →
        ∀ side, Accurate c (inputs.foldl (step c) initial) side := by
  intro hclaim
  have haccurate := hclaim twoSystems (crossConnect ++ lateReply) (by decide +kernel) .left
    rightSystem 0 (by decide +kernel) (by decide +kernel) (by decide +kernel) (by decide +kernel)
    ⟨10, 20, 30⟩ (by decide +kernel)
  have hestimate : ((((crossConnect ++ lateReply).foldl (step twoSystems) initial).peer
      .left).getClockDifferential (twoSystems.cfg .left) rightSystem).toNat =
        14395694394777757943 := by decide +kernel
  obtain ⟨e, hnear, hmod⟩ := haccurate
  rw [hestimate] at hmod
  have hround : Pong.roundTrip ⟨10, 20, 30⟩ = 20 := rfl
  have hahead : ((twoSystems.ahead Side.left.other : ℕ) : ℤ) - twoSystems.ahead .left = 500000 := rfl
  rw [hround] at hnear
  rw [hahead] at hmod
  unfold Int.ModEq at hmod
  omega

end Link

end SLikeNet
