import SLikeNet.UpdateCycle

/-! A connection attempt without a reply: the `ID_OPEN_CONNECTION_REQUEST_1` datagrams that
`RunUpdateCycle` sends for it, and how it ends. -/

namespace SLikeNet

/-- One pass of the update thread over the queue of requested connections. -/
structure ProbeVisit where
  timeMS : ℕ
  outcome : SystemAddress → SendOutcome

def datagramsTo (systemAddress : SystemAddress) (sent : List Sent) : List (List UInt8) :=
  sent.filterMap fun
    | .datagram target data => if target = systemAddress then some data else none
    | .message _ _ => none

def packetsAbout (systemAddress : SystemAddress) (packets : List UserPacket) : List UserPacket :=
  packets.filter fun packet => decide (packet.systemAddress = systemAddress)

/-- A pass at this time sends another request for the attempt, and divides by a third of its
`sendConnectionAttemptCount`. -/
def RequestedConnectionStruct.SendsAt (rcs : RequestedConnectionStruct) (timeMS : ℕ) : Prop :=
  rcs.nextRequestTime < timeMS ∧
    rcs.requestsMade ≠ (rcs.sendConnectionAttemptCount + 1) % 2 ^ 32 ∧
      rcs.systemAddress ≠ .unassigned

namespace RakPeer

/-- The peer after the first passes. -/
def visited (s : RakPeer) (visits : ℕ → ProbeVisit) : ℕ → RakPeer
  | 0 => s
  | n + 1 => (visited s visits n).requestConnections (visits n).timeMS (visits n).outcome

/-- What the first passes sent to an address. -/
def probesTo (s : RakPeer) (systemAddress : SystemAddress) (visits : ℕ → ProbeVisit) (n : ℕ) :
    List (List UInt8) :=
  datagramsTo systemAddress ((visited s visits n).sent.drop s.sent.length)

/-- What the first passes reported about an address. -/
def reportsAbout (s : RakPeer) (systemAddress : SystemAddress) (visits : ℕ → ProbeVisit) (n : ℕ) :
    List UserPacket :=
  packetsAbout systemAddress ((visited s visits n).packets.drop s.packets.length)

/-- As long as the attempt waits for its next request, the clock gets past that time. -/
def ClockAdvances (s : RakPeer) (systemAddress : SystemAddress) (visits : ℕ → ProbeVisit) : Prop :=
  ∀ n rcs, (visited s visits n).requested systemAddress = some rcs →
    ∃ m ≥ n, rcs.nextRequestTime < (visits m).timeMS

def attemptFailed (systemAddress : SystemAddress) : UserPacket :=
  ⟨[MessageID.connectionAttemptFailed], systemAddress, none, .unassigned⟩

/-- The attempt keeps within its budget and is given up. -/
structure EndsWithinBudget (s : RakPeer) (systemAddress : SystemAddress)
    (sendConnectionAttemptCount : ℕ) (visits : ℕ → ProbeVisit) : Prop where
  divides : ∀ n rcs, (visited s visits n).requested systemAddress = some rcs →
    rcs.SendsAt (visits n).timeMS → rcs.sendConnectionAttemptCount / mtuSizes.length ≠ 0
  budget : ∀ n, (s.probesTo systemAddress visits n).length ≤ sendConnectionAttemptCount + 1
  sizes : ∀ n, (s.probesTo systemAddress visits n).Pairwise fun first second =>
    second.length ≤ first.length
  ends : s.ClockAdvances systemAddress visits → ∃ n, ∀ m ≥ n,
    (visited s visits m).requested systemAddress = none ∧
      s.reportsAbout systemAddress visits m = [attemptFailed systemAddress]

/-- No size is refused once the requests of the smallest size have begun to repeat. -/
def SmallestFits (s : RakPeer) (systemAddress : SystemAddress) (visits : ℕ → ProbeVisit) : Prop :=
  ∀ n rcs, (visited s visits n).requested systemAddress = some rcs →
    rcs.SendsAt (visits n).timeMS →
      mtuSizes.length * (rcs.sendConnectionAttemptCount / mtuSizes.length) ≤ rcs.requestsMade →
        (visits n).outcome systemAddress ≠ .tooLarge

/-! ### One request -/

variable {rcs : RequestedConnectionStruct} {timeMS : ℕ} {outcome : SendOutcome}

theorem processRequest_early (h : ¬ rcs.nextRequestTime < timeMS) :
    processRequest timeMS outcome rcs = ⟨some rcs, [], []⟩ := by
  rw [processRequest, if_neg h]

theorem processRequest_sends (h : rcs.SendsAt timeMS) :
    processRequest timeMS outcome rcs = ⟨some (afterRequest rcs timeMS outcome), [],
      [.datagram rcs.systemAddress (openConnectionRequest1Data (mtuSizeIndex rcs))]⟩ := by
  rw [processRequest, if_pos h.1]
  dsimp only
  rw [decide_eq_false h.2.1, decide_eq_false h.2.2]
  rfl

theorem processRequest_ends (hdue : rcs.nextRequestTime < timeMS)
    (hmade : rcs.requestsMade = (rcs.sendConnectionAttemptCount + 1) % 2 ^ 32)
    (hassigned : rcs.systemAddress ≠ .unassigned) :
    processRequest timeMS outcome rcs = ⟨none, [attemptFailed rcs.systemAddress], []⟩ := by
  rw [processRequest, if_pos hdue]
  simp [hmade, hassigned, attemptFailed]

theorem afterRequest_systemAddress :
    (afterRequest rcs timeMS outcome).systemAddress = rcs.systemAddress := by
  cases outcome with
  | sent => rfl
  | tooLarge => rfl
  | slow =>
    rw [afterRequest]
    split <;> rfl

theorem afterRequest_count : (afterRequest rcs timeMS outcome).sendConnectionAttemptCount =
    rcs.sendConnectionAttemptCount := by
  cases outcome with
  | sent => rfl
  | tooLarge => rfl
  | slow =>
    rw [afterRequest]
    split <;> rfl

theorem processRequest_kept {kept : RequestedConnectionStruct}
    (h : (processRequest timeMS outcome rcs).kept = some kept) :
    kept.systemAddress = rcs.systemAddress := by
  rw [processRequest] at h
  split at h
  · dsimp only at h
    split at h
    · exact absurd h nofun
    · obtain rfl := Option.some.inj h
      exact afterRequest_systemAddress
  · obtain rfl := Option.some.inj h
    rfl

theorem datagramsTo_processRequest {systemAddress : SystemAddress}
    (h : rcs.systemAddress ≠ systemAddress) :
    datagramsTo systemAddress (processRequest timeMS outcome rcs).sent = [] := by
  rw [processRequest]
  split
  · dsimp only
    split
    · rfl
    · simp [datagramsTo, h]
  · rfl

theorem packetsAbout_processRequest {systemAddress : SystemAddress}
    (h : rcs.systemAddress ≠ systemAddress) :
    packetsAbout systemAddress (processRequest timeMS outcome rcs).packets = [] := by
  rw [processRequest]
  split
  · dsimp only
    split
    · dsimp only
      split
      · simp [packetsAbout, h]
      · rfl
    · rfl
  · rfl

/-! ### The queue -/

variable {systemAddress : SystemAddress} {queue : List RequestedConnectionStruct}

def requestOf (systemAddress : SystemAddress) (queue : List RequestedConnectionStruct) :
    Option RequestedConnectionStruct :=
  queue.find? fun rcs => decide (rcs.systemAddress = systemAddress)

theorem requestOf_eq_none
    (h : systemAddress ∉ queue.map RequestedConnectionStruct.systemAddress) :
    requestOf systemAddress queue = none := by
  refine List.find?_eq_none.mpr fun rcs hmem heq => h ?_
  rw [← of_decide_eq_true heq]
  exact List.mem_map_of_mem hmem

theorem flatten_requestOf {β : Type*} {part : RequestedConnectionStruct → List β}
    (hnodup : (queue.map RequestedConnectionStruct.systemAddress).Nodup)
    (hpart : ∀ rcs, rcs.systemAddress ≠ systemAddress → part rcs = []) :
    (queue.map part).flatten = ((requestOf systemAddress queue).map part).getD [] := by
  induction queue with
  | nil => rfl
  | cons rcs queue ih =>
    rw [List.map_cons, List.nodup_cons] at hnodup
    rw [List.map_cons, List.flatten_cons, requestOf, List.find?_cons, ih hnodup.2]
    by_cases hsame : rcs.systemAddress = systemAddress
    · rw [decide_eq_true hsame, requestOf_eq_none (hsame ▸ hnodup.1)]
      simp
    · rw [decide_eq_false hsame, hpart rcs hsame]
      rfl

theorem keptAddresses_sublist (process : RequestedConnectionStruct → ProcessedRequest)
    (hkept : ∀ rcs kept, (process rcs).kept = some kept → kept.systemAddress = rcs.systemAddress) :
    (((queue.map process).filterMap ProcessedRequest.kept).map
      RequestedConnectionStruct.systemAddress).Sublist
        (queue.map RequestedConnectionStruct.systemAddress) := by
  induction queue with
  | nil => exact List.Sublist.slnil
  | cons rcs queue ih =>
    rw [List.map_cons, List.filterMap_cons]
    cases hrcs : (process rcs).kept with
    | none => exact ih.cons _
    | some kept =>
      rw [List.map_cons, List.map_cons, hkept rcs kept hrcs]
      exact ih.cons_cons _

theorem requestOf_kept {process : RequestedConnectionStruct → ProcessedRequest}
    (hkept : ∀ rcs kept, (process rcs).kept = some kept → kept.systemAddress = rcs.systemAddress)
    (hnodup : (queue.map RequestedConnectionStruct.systemAddress).Nodup) :
    requestOf systemAddress ((queue.map process).filterMap ProcessedRequest.kept) =
      (requestOf systemAddress queue).bind fun rcs => (process rcs).kept := by
  induction queue with
  | nil => rfl
  | cons rcs queue ih =>
    rw [List.map_cons, List.nodup_cons] at hnodup
    have hrest := ih hnodup.2
    rw [List.map_cons, List.filterMap_cons]
    by_cases hsame : rcs.systemAddress = systemAddress
    · have hfound : requestOf systemAddress (rcs :: queue) = some rcs := by
        rw [requestOf, List.find?_cons, decide_eq_true hsame]
      rw [hfound, Option.bind_some]
      cases hrcs : (process rcs).kept with
      | none =>
        have hnone : requestOf systemAddress queue = none := requestOf_eq_none (hsame ▸ hnodup.1)
        rw [hnone] at hrest
        exact hrest
      | some kept =>
        rw [requestOf, List.find?_cons, decide_eq_true ((hkept rcs kept hrcs).trans hsame)]
    · have hskipped : requestOf systemAddress (rcs :: queue) = requestOf systemAddress queue := by
        rw [requestOf, List.find?_cons, decide_eq_false hsame]
        rfl
      rw [hskipped, ← hrest]
      cases hrcs : (process rcs).kept with
      | none => rfl
      | some kept =>
        have hother : kept.systemAddress ≠ systemAddress := (hkept rcs kept hrcs) ▸ hsame
        rw [requestOf, List.find?_cons, decide_eq_false hother]
        rfl

/-! ### One pass -/

variable {s : RakPeer} {visits : ℕ → ProbeVisit}

def DistinctRequests (s : RakPeer) : Prop :=
  (s.requestedConnectionQueue.map RequestedConnectionStruct.systemAddress).Nodup

/-- `SendConnectionRequest` takes no second request for an address. -/
theorem DistinctRequests.sendConnectionRequest (cfg : PeerConfig) (h : s.DistinctRequests)
    (c : ConnectInput) : (s.sendConnectionRequest cfg c).2.DistinctRequests := by
  rw [RakPeer.sendConnectionRequest]
  split
  · exact h
  · split
    · exact h
    · rename_i hnew
      have hmissing : c.systemAddress ∉
          s.requestedConnectionQueue.map RequestedConnectionStruct.systemAddress := by
        intro hmem
        obtain ⟨rcs, hrcs, heq⟩ := List.mem_map.mp hmem
        refine hnew (List.find?_isSome.mpr ⟨rcs, hrcs, ?_⟩)
        exact decide_eq_true heq
      show (List.map _ (s.requestedConnectionQueue ++ [_])).Nodup
      rw [List.map_append, List.nodup_append]
      refine ⟨h, List.nodup_singleton _, fun first hfirst second hsecond heq => ?_⟩
      obtain rfl := List.mem_singleton.mp hsecond
      rw [heq] at hfirst
      exact hmissing hfirst

theorem DistinctRequests.requestConnections (h : s.DistinctRequests) (timeMS : ℕ)
    (outcome : SystemAddress → SendOutcome) :
    (s.requestConnections timeMS outcome).DistinctRequests :=
  (keptAddresses_sublist _ fun _ _ => processRequest_kept).nodup h

theorem DistinctRequests.visited (h : s.DistinctRequests) (visits : ℕ → ProbeVisit) (n : ℕ) :
    (s.visited visits n).DistinctRequests := by
  induction n with
  | zero => exact h
  | succ n ih => exact ih.requestConnections _ _

theorem requested_systemAddress {peer : RakPeer}
    (h : peer.requested systemAddress = some rcs) : rcs.systemAddress = systemAddress := by
  rw [requested] at h
  simpa using List.find?_some h

def processed (systemAddress : SystemAddress) (visit : ProbeVisit)
    (rcs : RequestedConnectionStruct) : ProcessedRequest :=
  processRequest visit.timeMS (visit.outcome systemAddress) rcs

theorem map_requested {β : Type*} (part : ProcessedRequest → β) (peer : RakPeer)
    (visit : ProbeVisit) :
    ((requestOf systemAddress peer.requestedConnectionQueue).map fun rcs =>
        part (processRequest visit.timeMS (visit.outcome rcs.systemAddress) rcs)) =
      (peer.requested systemAddress).map fun rcs => part (processed systemAddress visit rcs) := by
  refine Option.map_congr fun rcs hrcs => ?_
  rw [processed, requested_systemAddress hrcs]

theorem requested_visited_succ (h : s.DistinctRequests) (n : ℕ) :
    (s.visited visits (n + 1)).requested systemAddress =
      ((s.visited visits n).requested systemAddress).bind fun rcs =>
        (processed systemAddress (visits n) rcs).kept := by
  have hstep := @requestOf_kept systemAddress _ (fun rcs =>
    processRequest (visits n).timeMS ((visits n).outcome rcs.systemAddress) rcs)
    (fun _ _ => processRequest_kept) (h.visited visits n)
  rw [visited, requested, RakPeer.requestConnections]
  refine hstep.trans (Option.bind_congr fun rcs hrcs => ?_)
  rw [processed, requested_systemAddress hrcs]

theorem length_le_visited (s : RakPeer) (visits : ℕ → ProbeVisit) (n : ℕ) :
    s.sent.length ≤ (s.visited visits n).sent.length ∧
      s.packets.length ≤ (s.visited visits n).packets.length := by
  induction n with
  | zero => exact ⟨Nat.le_refl _, Nat.le_refl _⟩
  | succ n ih =>
    rw [visited, RakPeer.requestConnections]
    dsimp only
    rw [List.length_append, List.length_append]
    omega

theorem probesTo_succ (h : s.DistinctRequests) (n : ℕ) :
    s.probesTo systemAddress visits (n + 1) = s.probesTo systemAddress visits n ++
      (((s.visited visits n).requested systemAddress).map fun rcs =>
        datagramsTo systemAddress (processed systemAddress (visits n) rcs).sent).getD [] := by
  rw [probesTo, visited, RakPeer.requestConnections]
  dsimp only
  rw [List.drop_append_of_le_length (length_le_visited s visits n).1, ← map_requested (fun p =>
    datagramsTo systemAddress p.sent), ← flatten_requestOf (h.visited visits n) fun rcs hrcs =>
      datagramsTo_processRequest hrcs]
  simp only [probesTo, datagramsTo, List.filterMap_append, List.filterMap_flatten, List.map_map]
  rfl

theorem reportsAbout_succ (h : s.DistinctRequests) (n : ℕ) :
    s.reportsAbout systemAddress visits (n + 1) = s.reportsAbout systemAddress visits n ++
      (((s.visited visits n).requested systemAddress).map fun rcs =>
        packetsAbout systemAddress (processed systemAddress (visits n) rcs).packets).getD [] := by
  rw [reportsAbout, visited, RakPeer.requestConnections]
  dsimp only
  rw [List.drop_append_of_le_length (length_le_visited s visits n).2, ← map_requested (fun p =>
    packetsAbout systemAddress p.packets), ← flatten_requestOf (h.visited visits n) fun rcs hrcs =>
      packetsAbout_processRequest hrcs]
  simp only [reportsAbout, packetsAbout, List.filter_append, List.filter_flatten, List.map_map]
  rfl

/-! ### The counter -/

theorem mtuSizes_length : mtuSizes.length = 3 := rfl

theorem mtuSizeIndex_le (rcs : RequestedConnectionStruct) : mtuSizeIndex rcs ≤ 2 := by
  rw [mtuSizeIndex, mtuSizes_length]
  split
  · exact Nat.le_refl 2
  · omega

theorem mtuSizeIndex_mono {first second : RequestedConnectionStruct}
    (hcount : second.sendConnectionAttemptCount = first.sendConnectionAttemptCount)
    (hmade : first.requestsMade ≤ second.requestsMade) :
    mtuSizeIndex first ≤ mtuSizeIndex second := by
  have hdiv := Nat.div_le_div_right (c := first.sendConnectionAttemptCount / 3) hmade
  rw [mtuSizeIndex, mtuSizeIndex, mtuSizes_length, hcount]
  split <;> split <;> omega

theorem openConnectionRequest1Data_antitone {i j : ℕ} (hij : i ≤ j) (hj : j ≤ 2) :
    (openConnectionRequest1Data j).length ≤ (openConnectionRequest1Data i).length := by
  have hall : ∀ j < 3, ∀ i < j + 1, mtuSizes.getD j 0 ≤ mtuSizes.getD i 0 := by decide
  have hsizes := hall j (Nat.lt_succ_of_le hj) i (Nat.lt_succ_of_le hij)
  simp only [openConnectionRequest1Data, List.length_append, List.length_replicate]
  omega

theorem afterRequest_requestsMade (hcount : 3 ≤ rcs.sendConnectionAttemptCount)
    (hbyte : rcs.sendConnectionAttemptCount ≤ 254)
    (hmade : rcs.requestsMade ≤ rcs.sendConnectionAttemptCount)
    (hfits : 3 * (rcs.sendConnectionAttemptCount / 3) ≤ rcs.requestsMade → outcome ≠ .tooLarge) :
    rcs.requestsMade < (afterRequest rcs timeMS outcome).requestsMade ∧
      (afterRequest rcs timeMS outcome).requestsMade ≤ rcs.sendConnectionAttemptCount + 1 := by
  cases outcome with
  | sent =>
    show rcs.requestsMade < (rcs.requestsMade + 1) % 256 ∧ (rcs.requestsMade + 1) % 256 ≤ _
    omega
  | tooLarge =>
    have hbelow : rcs.requestsMade < 3 * (rcs.sendConnectionAttemptCount / 3) :=
      Nat.lt_of_not_le fun hle => hfits hle rfl
    show rcs.requestsMade < (mtuSizeIndex rcs + 1) * (rcs.sendConnectionAttemptCount / 3) % 256 ∧
      (mtuSizeIndex rcs + 1) * (rcs.sendConnectionAttemptCount / 3) % 256 ≤ _
    have hindex : mtuSizeIndex rcs =
        rcs.requestsMade / (rcs.sendConnectionAttemptCount / 3) := by
      rw [mtuSizeIndex, mtuSizes_length, if_neg]
      exact Nat.not_le.mpr (Nat.div_lt_of_lt_mul (by rwa [Nat.mul_comm]))
    have hpos : 0 < rcs.sendConnectionAttemptCount / 3 := Nat.div_pos hcount (by decide)
    have hnext := Nat.lt_mul_div_succ rcs.requestsMade hpos
    rw [← hindex, Nat.mul_comm] at hnext
    have hlast := Nat.mul_le_mul_right (rcs.sendConnectionAttemptCount / 3)
      (Nat.add_le_add_right (mtuSizeIndex_le rcs) 1)
    have hbudget := Nat.mul_div_le rcs.sendConnectionAttemptCount 3
    rw [Nat.mod_eq_of_lt (by omega)]
    omega
  | slow =>
    rw [afterRequest, mtuSizes_length]
    split
    · dsimp only
      omega
    · dsimp only
      omega

/-! ### The attempt -/

/-- The attempt under way after the first passes. -/
structure UnderWay (s : RakPeer) (systemAddress : SystemAddress) (visits : ℕ → ProbeVisit) (n : ℕ)
    (sendConnectionAttemptCount : ℕ) (rcs : RequestedConnectionStruct) : Prop where
  count : rcs.sendConnectionAttemptCount = sendConnectionAttemptCount
  made : rcs.requestsMade ≤ sendConnectionAttemptCount + 1
  budget : (s.probesTo systemAddress visits n).length ≤ rcs.requestsMade
  sizes : ∀ data ∈ s.probesTo systemAddress visits n,
    (openConnectionRequest1Data (mtuSizeIndex rcs)).length ≤ data.length
  reports : s.reportsAbout systemAddress visits n = []

/-- The attempt is under way or was given up, within its budget. -/
structure WithinBudget (s : RakPeer) (systemAddress : SystemAddress) (visits : ℕ → ProbeVisit)
    (n : ℕ) (sendConnectionAttemptCount : ℕ) : Prop where
  underWay : ∀ rcs, (s.visited visits n).requested systemAddress = some rcs →
    UnderWay s systemAddress visits n sendConnectionAttemptCount rcs
  ended : (s.visited visits n).requested systemAddress = none →
    (s.probesTo systemAddress visits n).length ≤ sendConnectionAttemptCount + 1 ∧
      s.reportsAbout systemAddress visits n = [attemptFailed systemAddress]
  sizes : (s.probesTo systemAddress visits n).Pairwise fun first second =>
    second.length ≤ first.length

theorem UnderWay.within {count n : ℕ} (h : UnderWay s systemAddress visits n count rcs)
    (hrcs : (s.visited visits n).requested systemAddress = some rcs)
    (hsizes : (s.probesTo systemAddress visits n).Pairwise fun first second =>
      second.length ≤ first.length) : WithinBudget s systemAddress visits n count where
  underWay _ hother := Option.some.inj (hrcs.symm.trans hother) ▸ h
  ended hnone := absurd (hnone.symm.trans hrcs) nofun
  sizes := hsizes

/-- A pass keeps the attempt as it is, sends one request for it, or gives it up. -/
inductive Visited (s : RakPeer) (systemAddress : SystemAddress) (visits : ℕ → ProbeVisit) (n : ℕ)
    (rcs : RequestedConnectionStruct) : Prop
  | early (hearly : ¬ rcs.nextRequestTime < (visits n).timeMS)
      (hkept : (s.visited visits (n + 1)).requested systemAddress = some rcs)
      (hprobes : s.probesTo systemAddress visits (n + 1) = s.probesTo systemAddress visits n)
      (hreports : s.reportsAbout systemAddress visits (n + 1) =
        s.reportsAbout systemAddress visits n)
  | sends (hsends : rcs.SendsAt (visits n).timeMS)
      (hkept : (s.visited visits (n + 1)).requested systemAddress =
        some (afterRequest rcs (visits n).timeMS ((visits n).outcome systemAddress)))
      (hprobes : s.probesTo systemAddress visits (n + 1) = s.probesTo systemAddress visits n ++
        [openConnectionRequest1Data (mtuSizeIndex rcs)])
      (hreports : s.reportsAbout systemAddress visits (n + 1) =
        s.reportsAbout systemAddress visits n)
  | ends (hdue : rcs.nextRequestTime < (visits n).timeMS)
      (hmade : rcs.requestsMade = (rcs.sendConnectionAttemptCount + 1) % 2 ^ 32)
      (hgone : (s.visited visits (n + 1)).requested systemAddress = none)
      (hprobes : s.probesTo systemAddress visits (n + 1) = s.probesTo systemAddress visits n)
      (hreports : s.reportsAbout systemAddress visits (n + 1) =
        s.reportsAbout systemAddress visits n ++ [attemptFailed systemAddress])

theorem visited_cases (h : s.DistinctRequests) (hassigned : systemAddress ≠ .unassigned) {n : ℕ}
    (hrcs : (s.visited visits n).requested systemAddress = some rcs) :
    Visited s systemAddress visits n rcs := by
  have hrequested := @requested_visited_succ systemAddress s visits h n
  have hprobes := @probesTo_succ systemAddress s visits h n
  have hreports := @reportsAbout_succ systemAddress s visits h n
  have hsame := requested_systemAddress hrcs
  simp only [hrcs, processed, Option.bind_some, Option.map_some, Option.getD_some]
    at hrequested hprobes hreports
  by_cases hdue : rcs.nextRequestTime < (visits n).timeMS
  · by_cases hmade : rcs.requestsMade = (rcs.sendConnectionAttemptCount + 1) % 2 ^ 32
    · rw [processRequest_ends hdue hmade (hsame ▸ hassigned), hsame] at hrequested hprobes hreports
      refine .ends hdue hmade hrequested (by simpa [datagramsTo] using hprobes) ?_
      simpa [packetsAbout, attemptFailed] using hreports
    · have hsends : rcs.SendsAt (visits n).timeMS := ⟨hdue, hmade, hsame ▸ hassigned⟩
      rw [processRequest_sends hsends, hsame] at hrequested hprobes hreports
      refine .sends hsends hrequested (by simpa [datagramsTo] using hprobes) ?_
      simpa [packetsAbout] using hreports
  · rw [processRequest_early hdue] at hrequested hprobes hreports
    refine .early hdue hrequested (by simpa [datagramsTo] using hprobes) ?_
    simpa [packetsAbout] using hreports

theorem gone_visited (h : s.DistinctRequests) {n : ℕ}
    (hgone : (s.visited visits n).requested systemAddress = none) :
    (s.visited visits (n + 1)).requested systemAddress = none ∧
      s.probesTo systemAddress visits (n + 1) = s.probesTo systemAddress visits n ∧
      s.reportsAbout systemAddress visits (n + 1) = s.reportsAbout systemAddress visits n := by
  rw [requested_visited_succ h, probesTo_succ h, reportsAbout_succ h, hgone]
  simp

theorem UnderWay.sends {count n : ℕ} (h : UnderWay s systemAddress visits n count rcs)
    (hsizes : (s.probesTo systemAddress visits n).Pairwise fun first second =>
      second.length ≤ first.length)
    (hcount : 3 ≤ count) (hbyte : count ≤ 254) (hsends : rcs.SendsAt (visits n).timeMS)
    (hfits : 3 * (count / 3) ≤ rcs.requestsMade → (visits n).outcome systemAddress ≠ .tooLarge)
    (hkept : (s.visited visits (n + 1)).requested systemAddress =
      some (afterRequest rcs (visits n).timeMS ((visits n).outcome systemAddress)))
    (hprobes : s.probesTo systemAddress visits (n + 1) = s.probesTo systemAddress visits n ++
      [openConnectionRequest1Data (mtuSizeIndex rcs)])
    (hreports : s.reportsAbout systemAddress visits (n + 1) =
      s.reportsAbout systemAddress visits n) :
    WithinBudget s systemAddress visits (n + 1) count := by
  obtain ⟨rfl, hmade, hbudget, hlarger, hnone⟩ := h
  have hlimit : rcs.requestsMade ≤ rcs.sendConnectionAttemptCount := by
    have hne := hsends.2.1
    omega
  obtain ⟨hmore, hend⟩ :=
    @afterRequest_requestsMade rcs (visits n).timeMS _ hcount hbyte hlimit hfits
  refine UnderWay.within ⟨afterRequest_count, hend, ?_, ?_, ?_⟩ hkept ?_
  · rw [hprobes, List.length_append, List.length_singleton]
    omega
  · have hindex := mtuSizeIndex_mono afterRequest_count (Nat.le_of_lt hmore)
    have hsize := openConnectionRequest1Data_antitone hindex (mtuSizeIndex_le _)
    intro data hmem
    rw [hprobes, List.mem_append, List.mem_singleton] at hmem
    rcases hmem with hold | rfl
    · exact Nat.le_trans hsize (hlarger data hold)
    · exact hsize
  · rw [hreports, hnone]
  · rw [hprobes, List.pairwise_append]
    refine ⟨hsizes, List.pairwise_singleton _ _, fun data hmem last hlast => ?_⟩
    obtain rfl := List.mem_singleton.mp hlast
    exact hlarger data hmem

theorem WithinBudget.succ {count n : ℕ} (h : WithinBudget s systemAddress visits n count)
    (hdistinct : s.DistinctRequests) (hassigned : systemAddress ≠ .unassigned)
    (hcount : 3 ≤ count) (hbyte : count ≤ 254) (hfits : s.SmallestFits systemAddress visits) :
    WithinBudget s systemAddress visits (n + 1) count := by
  cases hrcs : (s.visited visits n).requested systemAddress with
  | none =>
    obtain ⟨hgone, hprobes, hreports⟩ := gone_visited hdistinct hrcs
    refine ⟨fun rcs hkept => absurd (hgone.symm.trans hkept) nofun, fun _ => ?_, ?_⟩
    · rw [hprobes, hreports]
      exact h.ended hrcs
    · rw [hprobes]
      exact h.sizes
  | some rcs =>
    have hunder := h.underWay rcs hrcs
    cases visited_cases hdistinct hassigned hrcs with
    | early _ hkept hprobes hreports =>
      obtain ⟨hsame, hmade, hbudget, hlarger, hnone⟩ := hunder
      exact UnderWay.within ⟨hsame, hmade, by rwa [hprobes], by rwa [hprobes], by rwa [hreports]⟩
        hkept (by rw [hprobes]; exact h.sizes)
    | sends hsends hkept hprobes hreports =>
      refine hunder.sends h.sizes hcount hbyte hsends ?_ hkept hprobes hreports
      rw [← hunder.count]
      exact hfits n rcs hrcs hsends
    | ends _ _ hgone hprobes hreports =>
      refine ⟨fun rcs hkept => absurd (hgone.symm.trans hkept) nofun, fun _ => ?_, ?_⟩
      · rw [hprobes, hreports, hunder.reports]
        exact ⟨Nat.le_trans hunder.budget hunder.made, rfl⟩
      · rw [hprobes]
        exact h.sizes

theorem made_le_of_sendsAt {count n : ℕ} (h : UnderWay s systemAddress visits n count rcs)
    (hbyte : count ≤ 254) (hsends : rcs.SendsAt timeMS) : rcs.requestsMade ≤ count := by
  obtain ⟨rfl, hmade, -⟩ := h
  have hne := hsends.2.1
  omega

theorem exists_due (hdistinct : s.DistinctRequests) (hassigned : systemAddress ≠ .unassigned)
    {n d : ℕ} (hrcs : (s.visited visits n).requested systemAddress = some rcs)
    (hdue : rcs.nextRequestTime < (visits (n + d)).timeMS) :
    ∃ m, (s.visited visits m).requested systemAddress = some rcs ∧
      rcs.nextRequestTime < (visits m).timeMS := by
  induction d generalizing n with
  | zero => exact ⟨n, hrcs, hdue⟩
  | succ d ih =>
    cases visited_cases hdistinct hassigned hrcs with
    | early _ hkept =>
      refine ih hkept ?_
      rwa [Nat.add_right_comm]
    | sends hsends => exact ⟨n, hrcs, hsends.1⟩
    | ends hnow => exact ⟨n, hrcs, hnow⟩

theorem exists_gone {count : ℕ} (hdistinct : s.DistinctRequests)
    (hassigned : systemAddress ≠ .unassigned)
    (hwithin : ∀ n, WithinBudget s systemAddress visits n count)
    (hcount : 3 ≤ count) (hbyte : count ≤ 254) (hfits : s.SmallestFits systemAddress visits)
    (hclock : s.ClockAdvances systemAddress visits) (left n : ℕ)
    (hleft : ∀ rcs, (s.visited visits n).requested systemAddress = some rcs →
      count + 1 - rcs.requestsMade < left) :
    ∃ m, (s.visited visits m).requested systemAddress = none := by
  induction left generalizing n with
  | zero =>
    refine ⟨n, Option.eq_none_iff_forall_ne_some.mpr fun rcs hrcs => ?_⟩
    exact absurd (hleft rcs hrcs) (Nat.not_lt_zero _)
  | succ left ih =>
    cases hrcs : (s.visited visits n).requested systemAddress with
    | none => exact ⟨n, hrcs⟩
    | some rcs =>
      obtain ⟨later, hle, hdue⟩ := hclock n rcs hrcs
      obtain ⟨d, rfl⟩ := Nat.exists_eq_add_of_le hle
      obtain ⟨m, hm, hdue⟩ := exists_due hdistinct hassigned hrcs hdue
      have hunder := (hwithin m).underWay rcs hm
      cases visited_cases hdistinct hassigned hm with
      | early hearly => exact absurd hdue hearly
      | ends _ _ hgone => exact ⟨m + 1, hgone⟩
      | sends hsends hkept =>
        -- the request is counted, and where a size was refused the counter moved up further
        have hlimit := made_le_of_sendsAt hunder hbyte hsends
        have hmore := (@afterRequest_requestsMade rcs (visits m).timeMS
          ((visits m).outcome systemAddress) (hunder.count ▸ hcount) (hunder.count ▸ hbyte)
          (hunder.count ▸ hlimit) (hfits m rcs hm hsends)).1
        refine ih (m + 1) fun next hnext => ?_
        obtain rfl := Option.some.inj (hkept.symm.trans hnext)
        have hbefore := hleft rcs hrcs
        omega

theorem gone_stays (hdistinct : s.DistinctRequests) {n m : ℕ}
    (hgone : (s.visited visits n).requested systemAddress = none) (hle : n ≤ m) :
    (s.visited visits m).requested systemAddress = none := by
  obtain ⟨d, rfl⟩ := Nat.exists_eq_add_of_le hle
  clear hle
  induction d with
  | zero => exact hgone
  | succ d ih => exact (gone_visited hdistinct ih).1

theorem requested_sendConnectionRequest {cfg : PeerConfig} {c : ConnectInput}
    (hstarted : (s.sendConnectionRequest cfg c).1 = .connectionAttemptStarted) :
    ∃ rcs, (s.sendConnectionRequest cfg c).2.requested c.systemAddress = some rcs ∧
      rcs.requestsMade = 0 ∧ rcs.sendConnectionAttemptCount = c.sendConnectionAttemptCount := by
  rw [sendConnectionRequest] at hstarted ⊢
  split_ifs at hstarted ⊢ with hconnected hrequested
  have hnone : s.requested c.systemAddress = none := by simpa using hrequested
  refine
    ⟨{ systemAddress := c.systemAddress
       nextRequestTime := c.timeMS
       requestsMade := 0
       sendConnectionAttemptCount := c.sendConnectionAttemptCount
       timeBetweenSendConnectionAttemptsMS := c.timeBetweenSendConnectionAttemptsMS
       outgoingPassword := c.passwordData.take 255 }, ?_, rfl, rfl⟩
  rw [requested] at hnone ⊢
  dsimp only
  rw [List.find?_append, hnone, List.find?_singleton, decide_eq_true rfl]
  rfl

/-- An attempt of 3 to 254 requests that is not refused the smallest size once it repeats that
keeps within its budget and is given up. -/
theorem probing_ends (cfg : PeerConfig) (s : RakPeer) (c : ConnectInput) (visits : ℕ → ProbeVisit)
    (hdistinct : s.DistinctRequests) (hassigned : c.systemAddress ≠ .unassigned)
    (hstarted : (s.sendConnectionRequest cfg c).1 = .connectionAttemptStarted)
    (hcount : 3 ≤ c.sendConnectionAttemptCount) (hbyte : c.sendConnectionAttemptCount ≤ 254)
    (hfits : (s.sendConnectionRequest cfg c).2.SmallestFits c.systemAddress visits) :
    (s.sendConnectionRequest cfg c).2.EndsWithinBudget c.systemAddress
      c.sendConnectionAttemptCount visits := by
  obtain ⟨first, hfirst, hmade, hsame⟩ := requested_sendConnectionRequest hstarted
  have hdistinct := hdistinct.sendConnectionRequest cfg c
  generalize (s.sendConnectionRequest cfg c).2 = started at hfits hfirst hdistinct ⊢
  have hwithin : ∀ n,
      WithinBudget started c.systemAddress visits n c.sendConnectionAttemptCount := by
    intro n
    induction n with
    | zero =>
      refine UnderWay.within ⟨hsame, by omega, ?_, ?_, ?_⟩ hfirst ?_
      · simp [probesTo, visited, datagramsTo]
      · simp [probesTo, visited, datagramsTo]
      · simp [reportsAbout, visited, packetsAbout]
      · simp [probesTo, visited, datagramsTo]
    | succ n ih => exact ih.succ hdistinct hassigned hcount hbyte hfits
  refine ⟨fun n rcs hrcs _ => ?_, fun n => ?_, fun n => (hwithin n).sizes, fun hclock => ?_⟩
  · rw [((hwithin n).underWay rcs hrcs).count, mtuSizes_length]
    omega
  · cases hrcs : (started.visited visits n).requested c.systemAddress with
    | none => exact ((hwithin n).ended hrcs).1
    | some rcs =>
      have hunder := (hwithin n).underWay rcs hrcs
      exact Nat.le_trans hunder.budget hunder.made
  · obtain ⟨n, hgone⟩ := exists_gone hdistinct hassigned hwithin hcount hbyte hfits hclock
      (c.sendConnectionAttemptCount + 2) 0 fun rcs hrcs => by omega
    refine ⟨n, fun m hm => ?_⟩
    have hgone := gone_stays hdistinct hgone hm
    exact ⟨hgone, ((hwithin m).ended hgone).2⟩

def soloPeer : PeerConfig where
  maximumNumberOfPeers := 1
  maximumIncomingConnections := 0
  incomingPassword := []
  limitConnectionFrequencyFromTheSameIP := false
  allowConnectionResponseIPMigration := false
  myGuid := ⟨1⟩
  ipList := []
  toInteger sa := sa.ip.toNat

def attemptOf (sendConnectionAttemptCount : ℕ) : ConnectInput :=
  ⟨⟨1, 1⟩, [], sendConnectionAttemptCount, 500, 0⟩

/-- A pass every second, and every request is sent. -/
def everySecond (n : ℕ) : ProbeVisit := ⟨1000 * (n + 1), fun _ => .sent⟩

theorem probing_ends_twelve :
    ((initial.sendConnectionRequest soloPeer (attemptOf 12)).2).EndsWithinBudget ⟨1, 1⟩ 12
      everySecond := by
  refine probing_ends soloPeer initial (attemptOf 12) everySecond List.nodup_nil (by decide) ?_
    (by decide) (by decide) fun _ _ _ _ _ => by simp [everySecond]
  rfl

/-- The first request of an attempt with one of them divides by zero. -/
theorem single_attempt_divides_by_zero :
    ¬ ((initial.sendConnectionRequest soloPeer (attemptOf 1)).2).EndsWithinBudget ⟨1, 1⟩ 1
      everySecond := by
  intro h
  exact h.divides 0 ⟨⟨1, 1⟩, 0, 0, 1, 500, []⟩ rfl ⟨by decide, by decide, by decide⟩ rfl

end RakPeer

end SLikeNet
