import SLikeNet.VerifiedJoin
import SLikeNet.Library.GuardedRun

/-! The client of a verified join that is accepted is connected to all participants, where the
updates that it gets are complete and no system becomes a participant that it has given up. -/

namespace SLikeNet

namespace VerifiedJoinInProgress

open VerifiedJoinInProgressMember

/-! ### The first member of a system -/

section Members

variable {guid : ℕ} {vjip : VerifiedJoinInProgress}

def guids (vjip : VerifiedJoinInProgress) : List ℕ := vjip.map (·.guid)

@[simp] theorem stateOf_nil : stateOf guid [] = none := rfl

theorem stateOf_cons (member : VerifiedJoinInProgressMember) (vjip : VerifiedJoinInProgress) :
    stateOf guid (member :: vjip) =
      if member.guid = guid then some member.joinInProgressState else stateOf guid vjip := by
  by_cases h : member.guid = guid
  · simp [stateOf, getMember, IsSystem, h]
  · simp [stateOf, getMember, IsSystem, h]

theorem stateOf_append (xs ys : VerifiedJoinInProgress) :
    stateOf guid (xs ++ ys) = (stateOf guid xs).or (stateOf guid ys) := by
  induction xs with
  | nil => simp
  | cons member xs ih =>
    rw [List.cons_append, stateOf_cons, stateOf_cons]
    by_cases h : member.guid = guid
    · rw [if_pos h, if_pos h, Option.some_or]
    · rw [if_neg h, if_neg h, ih]

theorem stateOf_mem {state : JoinInProgressState} (h : stateOf guid vjip = some state) :
    ∃ member ∈ vjip, member.guid = guid ∧ member.joinInProgressState = state := by
  obtain ⟨member, hmember, rfl⟩ := Option.map_eq_some_iff.mp h
  exact ⟨member, List.mem_of_find?_eq_some hmember, by
    simpa [IsSystem] using List.find?_some hmember, rfl⟩

theorem stateOf_eq_none : stateOf guid vjip = none ↔ guid ∉ guids vjip := by
  simp [stateOf, getMember, IsSystem, guids]

theorem getMember_guid (guid : ℕ) (vjip : VerifiedJoinInProgress) :
    getMember (.rakNetGuid guid) vjip = none ↔ guid ∉ guids vjip := by
  simp [getMember, IsSystem, guids]

theorem stateOf_map {change : VerifiedJoinInProgressMember → VerifiedJoinInProgressMember}
    (hguid : ∀ member, (change member).guid = member.guid)
    (hstate : ∀ member, (change member).joinInProgressState = member.joinInProgressState)
    (vjip : VerifiedJoinInProgress) : stateOf guid (vjip.map change) = stateOf guid vjip := by
  induction vjip with
  | nil => rfl
  | cons member vjip ih => rw [List.map_cons, stateOf_cons, stateOf_cons, hguid, hstate, ih]

theorem stateOf_castSize {state : JoinInProgressState}
    (h : stateOf guid (castSize vjip) = some state) : stateOf guid vjip = some state := by
  rw [castSize] at h
  rw [← List.take_append_drop (vjip.length % 65536) vjip, stateOf_append, h, Option.some_or]

theorem guids_changeMember {systemIdentifier : SystemIdentifier}
    {change : VerifiedJoinInProgressMember → VerifiedJoinInProgressMember}
    (hguid : ∀ member, (change member).guid = member.guid) (vjip : VerifiedJoinInProgress) :
    guids (changeMember systemIdentifier change vjip) = guids vjip := by
  induction vjip with
  | nil => rfl
  | cons member vjip ih =>
    rw [changeMember]
    split
    · simp [guids, hguid]
    · simp only [guids, List.map_cons] at ih ⊢
      rw [ih]

/-- A system is not given up. -/
def Wanted (guid : ℕ) (vjip : VerifiedJoinInProgress) : Prop :=
  stateOf guid vjip ≠ some .unnecessary

theorem wanted_of_all (h : ∀ member ∈ vjip, member.joinInProgressState ≠ .unnecessary) :
    Wanted guid vjip := by
  intro hstate
  obtain ⟨member, hmember, -, heq⟩ := stateOf_mem hstate
  exact h member hmember heq

theorem Wanted.writeVerifiedJoinCapable (h : Wanted guid vjip) :
    Wanted guid (writeVerifiedJoinCapable vjip) := by
  intro hstate
  rw [VerifiedJoinInProgress.writeVerifiedJoinCapable, stateOf_map (by exact fun _ => rfl)
    (by exact fun _ => rfl)] at hstate
  exact h (stateOf_castSize hstate)

theorem Wanted.setState {systemIdentifier : SystemIdentifier} {state : JoinInProgressState}
    (h : Wanted guid vjip) (hstate : state ≠ .unnecessary) :
    Wanted guid (changeMember systemIdentifier (setState state) vjip) := by
  induction vjip with
  | nil => exact h
  | cons member vjip ih =>
    rw [Wanted, stateOf_cons] at h
    rw [changeMember]
    split
    · rw [Wanted, stateOf_cons]
      by_cases hguid : member.guid = guid
      · rw [if_pos (by exact hguid)]
        exact fun heq => hstate (Option.some.inj heq)
      · rw [if_neg (by exact hguid)]
        rwa [if_neg hguid] at h
    · rw [Wanted, stateOf_cons]
      by_cases hguid : member.guid = guid
      · rw [if_pos hguid]
        rwa [if_pos hguid] at h
      · rw [if_neg hguid] at h ⊢
        exact ih h

end Members

/-! ### The updates of the list -/

section Lists

variable {guid : ℕ} {vjip : VerifiedJoinInProgress}

theorem getMember_cons (member : VerifiedJoinInProgressMember) (vjip : VerifiedJoinInProgress) :
    getMember (.rakNetGuid guid) (member :: vjip) =
      if member.guid = guid then some member else getMember (.rakNetGuid guid) vjip := by
  by_cases h : member.guid = guid
  · simp [getMember, IsSystem, h]
  · simp [getMember, IsSystem, h]

/-- The first member of the system is in the list. -/
def Flagged (guid : ℕ) (vjip : VerifiedJoinInProgress) : Prop :=
  ∃ member, getMember (.rakNetGuid guid) vjip = some member ∧ member.workingFlag = true

theorem flagged_cons_self {member : VerifiedJoinInProgressMember} (h : member.guid = guid) :
    Flagged guid (member :: vjip) ↔ member.workingFlag = true := by
  rw [Flagged, getMember_cons, if_pos h]
  simp

theorem flagged_cons_other {member : VerifiedJoinInProgressMember} (h : member.guid ≠ guid) :
    Flagged guid (member :: vjip) ↔ Flagged guid vjip := by
  rw [Flagged, getMember_cons, if_neg h, Flagged]

theorem flagged_append {other : VerifiedJoinInProgress}
    (h : Flagged guid vjip ∨ (guid ∉ guids vjip ∧ Flagged guid other)) :
    Flagged guid (vjip ++ other) := by
  induction vjip with
  | nil =>
    rcases h with ⟨_, h, -⟩ | ⟨-, h⟩
    · cases h
    · exact h
  | cons member vjip ih =>
    rw [List.cons_append]
    by_cases hguid : member.guid = guid
    · rw [flagged_cons_self hguid] at h ⊢
      rcases h with h | ⟨h, -⟩
      · exact h
      · exact (h (by simp [guids, hguid])).elim
    · rw [flagged_cons_other hguid] at h ⊢
      apply ih
      rcases h with h | ⟨hnot, h⟩
      · exact .inl h
      · exact .inr ⟨fun hmem => hnot (List.mem_cons_of_mem _ hmem), h⟩

theorem flagged_changeMember {systemIdentifier : SystemIdentifier}
    (h : Flagged guid vjip ∨ (systemIdentifier = .rakNetGuid guid ∧ guid ∈ guids vjip)) :
    Flagged guid (changeMember systemIdentifier (setWorkingFlag true) vjip) := by
  induction vjip with
  | nil =>
    rcases h with ⟨_, h, -⟩ | ⟨-, h⟩
    · cases h
    · cases h
  | cons member vjip ih =>
    rw [changeMember]
    by_cases hguid : member.guid = guid
    · split
      · exact (flagged_cons_self (by exact hguid)).mpr rfl
      · rename_i hsystem
        rw [flagged_cons_self hguid] at h ⊢
        rcases h with h | ⟨rfl, -⟩
        · exact h
        · exact (hsystem (by simpa [IsSystem] using hguid)).elim
    · rw [flagged_cons_other hguid] at h
      split
      · rename_i hsystem
        rw [flagged_cons_other (by exact hguid)]
        rcases h with h | ⟨rfl, -⟩
        · exact h
        · exact (hguid (by simpa [IsSystem] using hsystem)).elim
      · rw [flagged_cons_other hguid]
        apply ih
        rcases h with h | ⟨heq, hmem⟩
        · exact .inl h
        · refine .inr ⟨heq, ?_⟩
          rcases List.mem_cons.mp hmem with rfl | hmem
          · exact (hguid rfl).elim
          · exact hmem

theorem stateOf_changeMember {systemIdentifier : SystemIdentifier}
    {change : VerifiedJoinInProgressMember → VerifiedJoinInProgressMember}
    (hguid : ∀ member, (change member).guid = member.guid)
    (hstate : ∀ member, (change member).joinInProgressState = member.joinInProgressState) :
    stateOf guid (changeMember systemIdentifier change vjip) = stateOf guid vjip := by
  induction vjip with
  | nil => rfl
  | cons member vjip ih =>
    rw [changeMember]
    split
    · rw [stateOf_cons, stateOf_cons, hguid, hstate]
    · rw [stateOf_cons, stateOf_cons, ih]

theorem stateOf_listMember (member : VerifiedJoinInProgressMember) :
    stateOf guid (listMember vjip member) =
      (stateOf guid vjip).or
        (if member.guid = guid then some member.joinInProgressState else none) := by
  rw [listMember]
  split
  · rw [stateOf_append, stateOf_cons, stateOf_nil]
    rfl
  · rename_i known hknown
    rw [stateOf_changeMember (by exact fun _ => rfl) (by exact fun _ => rfl)]
    by_cases hguid : member.guid = guid
    · rw [stateOf, ← hguid, hknown]
      rfl
    · rw [if_neg hguid, Option.or_none]

theorem flagged_listMember {member : VerifiedJoinInProgressMember}
    (h : Flagged guid vjip ∨ member.guid = guid) : Flagged guid (listMember vjip member) := by
  rw [listMember]
  split
  · rename_i hnone
    apply flagged_append
    rcases h with h | rfl
    · exact .inl h
    · exact .inr ⟨(getMember_guid _ _).mp hnone, (flagged_cons_self (by rfl)).mpr rfl⟩
  · rename_i known hknown
    apply flagged_changeMember
    rcases h with h | rfl
    · exact .inl h
    · refine .inr ⟨rfl, ?_⟩
      by_contra hnot
      rw [(getMember_guid _ _).mpr hnot] at hknown
      cases hknown

/-- The systems of a list that are not given up are not given up after it, and are the ones that are
flagged. -/
theorem foldl_listMember (list : List VerifiedJoinInProgressMember)
    (hlist : ∀ member ∈ list, member.joinInProgressState ≠ .unnecessary) (h : Wanted guid vjip) :
    Wanted guid (list.foldl listMember vjip) ∧
      (Flagged guid vjip ∨ guid ∈ guids list → Flagged guid (list.foldl listMember vjip)) ∧
        (guid ∉ guids vjip → guid ∉ guids list → guid ∉ guids (list.foldl listMember vjip)) := by
  induction list generalizing vjip with
  | nil => exact ⟨h, fun hor => hor.resolve_right List.not_mem_nil, fun hnot _ => hnot⟩
  | cons member list ih =>
    have hwanted : Wanted guid (listMember vjip member) := by
      rw [Wanted, stateOf_listMember]
      rw [Wanted] at h
      cases hstate : stateOf guid vjip with
      | some state => rwa [Option.some_or, ← hstate]
      | none =>
        rw [Option.none_or]
        split
        · exact fun heq => hlist member List.mem_cons_self (Option.some.inj heq)
        · exact fun heq => by cases heq
    obtain ⟨hwanted', hflagged, hunknown⟩ :=
      ih (fun m hm => hlist m (List.mem_cons_of_mem _ hm)) hwanted
    refine ⟨hwanted', ?_, ?_⟩
    · intro hor
      apply hflagged
      rcases hor with hor | hor
      · exact .inl (flagged_listMember (.inl hor))
      · rcases List.mem_cons.mp hor with heq | hmem
        · exact .inl (flagged_listMember (.inr heq.symm))
        · exact .inr hmem
    · intro hnot hlisted
      apply hunknown
      · have hne : member.guid ≠ guid := fun heq => hlisted (by simp [guids, heq])
        rw [← stateOf_eq_none, stateOf_listMember, if_neg hne, Option.or_none]
        exact stateOf_eq_none.mpr hnot
      · exact fun hmem => hlisted (List.mem_cons_of_mem _ hmem)

theorem wanted_markUnnecessary (h : Wanted guid vjip)
    (hflagged : guid ∈ guids vjip → Flagged guid vjip) :
    Wanted guid (vjip.map markUnnecessary) := by
  induction vjip with
  | nil => exact h
  | cons member vjip ih =>
    rw [Wanted, List.map_cons, stateOf_cons]
    rw [Wanted, stateOf_cons] at h
    have hsame : (markUnnecessary member).guid = member.guid := by
      rw [markUnnecessary]
      split <;> rfl
    rw [hsame]
    by_cases hguid : member.guid = guid
    · rw [if_pos hguid] at h ⊢
      have hflag := (flagged_cons_self hguid).mp (hflagged (by simp [guids, hguid]))
      rwa [markUnnecessary, if_pos hflag]
    · rw [if_neg hguid] at h ⊢
      apply ih h
      intro hmem
      exact (flagged_cons_other hguid).mp (hflagged (List.mem_cons_of_mem _ hmem))

theorem guids_markUnnecessary (vjip : VerifiedJoinInProgress) :
    guids (vjip.map markUnnecessary) = guids vjip := by
  rw [guids, List.map_map]
  apply List.map_congr_left
  intro member _
  simp only [Function.comp, markUnnecessary]
  split <;> rfl

theorem read_state (connectionState : ℕ → ConnectionState) (entry : ℕ × Option ℕ) :
    (readVerifiedJoinInProgressMember connectionState entry).joinInProgressState ≠
      .unnecessary := by
  rw [readVerifiedJoinInProgressMember]
  dsimp only
  split
  · decide
  · decide
  · decide
  · decide

theorem guids_read (connectionState : ℕ → ConnectionState) (list : List (ℕ × Option ℕ)) :
    guids (list.map (readVerifiedJoinInProgressMember connectionState)) = list.map (·.1) := by
  rw [guids, List.map_map]
  rfl

theorem wanted_start (connectionState : ℕ → ConnectionState) {list : List (ℕ × Option ℕ)}
    {joinInProgress : Option VerifiedJoinInProgress}
    (h : Wanted guid (joinInProgress.getD []))
    (hkept : guid ∈ guids (joinInProgress.getD []) → guid ∈ list.map (·.1)) :
    Wanted guid (onVerifiedJoinStart connectionState list joinInProgress) ∧
      (guid ∈ guids (onVerifiedJoinStart connectionState list joinInProgress) →
        guid ∈ list.map (·.1)) := by
  have hread : ∀ member ∈ list.map (readVerifiedJoinInProgressMember connectionState),
      member.joinInProgressState ≠ .unnecessary := by
    intro member hmember
    obtain ⟨entry, -, rfl⟩ := List.mem_map.mp hmember
    exact read_state connectionState entry
  cases joinInProgress with
  | none =>
    change Wanted guid (list.map _) ∧ (guid ∈ guids (list.map _) → _)
    refine ⟨wanted_of_all hread, fun hmem => ?_⟩
    rwa [guids_read] at hmem
  | some vjip =>
    rw [Option.getD_some] at h hkept
    have hclear : Wanted guid (vjip.map (setWorkingFlag false)) := by
      rwa [Wanted, stateOf_map (by exact fun _ => rfl) (by exact fun _ => rfl)]
    have hguids : guids (vjip.map (setWorkingFlag false)) = guids vjip := by
      rw [guids, List.map_map]
      rfl
    obtain ⟨hwanted, hflagged, hunknown⟩ := foldl_listMember _ hread hclear
    rw [guids_read, hguids] at hunknown
    rw [guids_read] at hflagged
    change Wanted guid (updateList _ vjip) ∧ (guid ∈ guids (updateList _ vjip) → _)
    rw [updateList, guids_markUnnecessary]
    have hlisted : guid ∈ guids ((list.map (readVerifiedJoinInProgressMember
        connectionState)).foldl listMember (vjip.map (setWorkingFlag false))) →
          guid ∈ list.map (·.1) := by
      intro hmem
      by_contra hnot
      exact hunknown (fun hknown => hnot (hkept hknown)) hnot hmem
    exact ⟨wanted_markUnnecessary hwanted fun hmem => hflagged (.inr (hlisted hmem)), hlisted⟩

/-- No member is processed. -/
def Finished (vjip : VerifiedJoinInProgress) : Prop :=
  ∀ member ∈ vjip, member.joinInProgressState ≠ .processing

theorem finished_sent {packet : VerifiedJoinInProgress}
    (h : packet ∈ processVerifiedJoinInProgressIfCompleted vjip) : Finished packet := by
  rw [processVerifiedJoinInProgressIfCompleted] at h
  split at h
  · cases h
  · rename_i hany
    obtain rfl := List.mem_singleton.mp h
    intro member hmember
    obtain ⟨sent, hsent, rfl⟩ := List.mem_map.mp hmember
    intro hstate
    exact hany (List.any_eq_true.mpr ⟨sent, List.mem_of_mem_take hsent, decide_eq_true hstate⟩)

theorem Wanted.sent {packet : VerifiedJoinInProgress} (h : Wanted guid vjip)
    (hpacket : packet ∈ processVerifiedJoinInProgressIfCompleted vjip) : Wanted guid packet := by
  rw [processVerifiedJoinInProgressIfCompleted] at hpacket
  split at hpacket
  · cases hpacket
  · rw [List.mem_singleton.mp hpacket]
    exact h.writeVerifiedJoinCapable

theorem update_spec (systemIdentifier : SystemIdentifier) {newState : JoinInProgressState}
    (hnew : newState ≠ .unnecessary) (h : Wanted guid vjip) :
    Wanted guid (updateVerifiedJoinInProgressMember systemIdentifier newState vjip).1 ∧
      guids (updateVerifiedJoinInProgressMember systemIdentifier newState vjip).1 = guids vjip ∧
        ∀ packet ∈ (updateVerifiedJoinInProgressMember systemIdentifier newState vjip).2,
          Wanted guid packet := by
  rw [updateVerifiedJoinInProgressMember]
  split
  · exact ⟨h, rfl, fun packet hpacket => by cases hpacket⟩
  · split
    · exact ⟨h.setState hnew, guids_changeMember (by exact fun _ => rfl) _,
        fun packet hpacket => (h.setState hnew).sent hpacket⟩
    · exact ⟨h, rfl, fun packet hpacket => by cases hpacket⟩

end Lists

/-! ### What the host makes of a packet -/

section Categories

variable {participants : List ℕ} {packet : VerifiedJoinInProgress}

/-- The participants are all in the packet, or none is. -/
def AllOrNone (participants : List ℕ) (packet : VerifiedJoinInProgress) : Prop :=
  (∀ guid ∈ participants, stateOf guid packet ≠ none) ∨
    ∀ guid ∈ participants, stateOf guid packet = none

instance (participants : List ℕ) (packet : VerifiedJoinInProgress) :
    Decidable (AllOrNone participants packet) :=
  inferInstanceAs (Decidable (_ ∨ _))

theorem notOnClient_eq_nil :
    (categorizeVJIP participants packet).participatingMembersNotOnClient = [] ↔
      ∀ guid ∈ participants, stateOf guid packet ≠ none := by
  simp [categorizeVJIP]

theorem failed_eq_nil :
    (categorizeVJIP participants packet).participatingMembersOnClientFailed = [] ↔
      ∀ guid ∈ participants, stateOf guid packet ≠ some .failed := by
  simp [categorizeVJIP]

theorem notOnClient_complete (h : AllOrNone participants packet)
    (hne : (categorizeVJIP participants packet).participatingMembersNotOnClient ≠ []) :
    (categorizeVJIP participants packet).participatingMembersNotOnClient = participants := by
  rcases h with h | h
  · exact (hne (notOnClient_eq_nil.mpr h)).elim
  · exact List.filter_eq_self.mpr fun guid hguid => decide_eq_true (h guid hguid)

end Categories

end VerifiedJoinInProgress

namespace VerifiedJoin

open FullyConnectedMesh2 VerifiedJoinInProgress

/-- The lists on their way leave in a system that the client knows. -/
def kept (guid : ℕ) : Bool → List JoinMessage → Bool
  | _, [] => true
  | known, .start list :: messages =>
    (!known || decide (guid ∈ list.map (·.1))) && kept guid (guid ∈ list.map (·.1)) messages
  | _, .failed :: messages => kept guid false messages
  | _, .accepted _ _ :: messages => kept guid false messages
  | _, .rejected :: messages => kept guid false messages

/-- The message does not leave out the system. -/
def Lists (guid : ℕ) (message : JoinMessage) : Prop :=
  ∀ list, message = .start list → guid ∈ list.map (·.1)

theorem kept_mono {guid : ℕ} {known known' : Bool} {messages : List JoinMessage}
    (h : kept guid known messages = true) (hle : known' = true → known = true) :
    kept guid known' messages = true := by
  cases messages with
  | nil => rfl
  | cons message messages =>
    cases message with
    | start list =>
      rw [kept, Bool.and_eq_true] at h ⊢
      refine ⟨?_, h.2⟩
      cases known' with
      | false => rfl
      | true =>
        obtain rfl := hle rfl
        exact h.1
    | failed => exact h
    | accepted toDisconnect toAdd => exact h
    | rejected => exact h

theorem kept_of_lists {guid : ℕ} {sent : List JoinMessage} (known : Bool)
    (hsent : ∀ message ∈ sent, Lists guid message) : kept guid known sent = true := by
  induction sent generalizing known with
  | nil => rfl
  | cons message sent ih =>
    have hrest := fun known => ih known fun m hm => hsent m (List.mem_cons_of_mem _ hm)
    cases message with
    | start list =>
      have hlisted := hsent _ List.mem_cons_self list rfl
      rw [kept, decide_eq_true hlisted, Bool.or_true, Bool.true_and]
      exact hrest true
    | failed => exact hrest false
    | accepted toDisconnect toAdd => exact hrest false
    | rejected => exact hrest false

theorem kept_append {guid : ℕ} {known : Bool} {messages sent : List JoinMessage}
    (h : kept guid known messages = true) (hsent : ∀ message ∈ sent, Lists guid message) :
    kept guid known (messages ++ sent) = true := by
  induction messages generalizing known with
  | nil => exact kept_of_lists known hsent
  | cons message messages ih =>
    cases message with
    | start list =>
      rw [List.cons_append, kept, Bool.and_eq_true]
      rw [kept, Bool.and_eq_true] at h
      exact ⟨h.1, ih h.2⟩
    | failed => exact ih h
    | accepted toDisconnect toAdd => exact ih h
    | rejected => exact ih h

/-! ### A system that may become a participant -/

/-- The system is given up nowhere, and the lists on their way leave it in. -/
structure Joinable (s : VerifiedJoin) (guid : ℕ) : Prop where
  joinInProgress : Wanted guid (s.joinInProgress.getD [])
  toHost : ∀ packet ∈ s.toHost, Wanted guid packet
  packets : ∀ packet ∈ s.packets, Wanted guid packet ∧ stateOf guid packet ≠ some .failed
  toClient : kept guid (guid ∈ guids (s.joinInProgress.getD [])) s.toClient = true

instance (guid : ℕ) (vjip : VerifiedJoinInProgress) : Decidable (Wanted guid vjip) :=
  inferInstanceAs (Decidable (_ ≠ _))

instance (s : VerifiedJoin) (guid : ℕ) : Decidable (s.Joinable guid) :=
  decidable_of_iff (Wanted guid (s.joinInProgress.getD []) ∧
      (∀ packet ∈ s.toHost, Wanted guid packet) ∧
      (∀ packet ∈ s.packets, Wanted guid packet ∧ stateOf guid packet ≠ some .failed) ∧
      kept guid (guid ∈ guids (s.joinInProgress.getD [])) s.toClient = true)
    ⟨fun ⟨h₁, h₂, h₃, h₄⟩ => ⟨h₁, h₂, h₃, h₄⟩, fun h => ⟨h.1, h.2, h.3, h.4⟩⟩

section Steps

variable {s : VerifiedJoin} {guid : ℕ}

theorem Joinable.send (h : s.Joinable guid) {sent : List JoinMessage} (host : FullyConnectedMesh2)
    (hsent : ∀ message ∈ sent, Lists guid message) :
    Joinable { s with host := host, toClient := s.toClient ++ sent } guid :=
  ⟨h.joinInProgress, h.toHost, h.packets, kept_append h.toClient hsent⟩

theorem Joinable.lostClient (h : s.Joinable guid) (ourGuid client : ℕ) :
    (s.lostClient ourGuid client).Joinable guid := by
  refine ⟨?_, List.forall_mem_nil _, h.packets, rfl⟩
  exact fun heq => by cases heq

theorem Joinable.connectionResult (h : s.Joinable guid) (systemIdentifier : SystemIdentifier)
    (succeeded : Bool) : (s.connectionResult systemIdentifier succeeded).Joinable guid := by
  rw [VerifiedJoin.connectionResult]
  cases hjoin : s.joinInProgress with
  | none => exact h
  | some vjip =>
    obtain ⟨hwanted, htoHost, hpackets, htoClient⟩ := h
    rw [hjoin, Option.getD_some] at hwanted htoClient
    have hnew : (if succeeded then JoinInProgressState.connected else .failed) ≠
        .unnecessary := by
      cases succeeded
      · decide
      · decide
    obtain ⟨hwanted', hguids, hsent⟩ := update_spec systemIdentifier hnew hwanted
    refine ⟨hwanted', ?_, hpackets, ?_⟩
    · intro packet hpacket
      rcases List.mem_append.mp hpacket with hpacket | hpacket
      · exact htoHost packet hpacket
      · exact hsent packet hpacket
    · simp only [Option.getD_some, hguids]
      exact htoClient

theorem Joinable.messageArrives (h : s.Joinable guid) (connectionState : ℕ → ConnectionState) :
    (s.messageArrives connectionState).Joinable guid := by
  obtain ⟨hwanted, htoHost, hpackets, htoClient⟩ := h
  have hnone : Wanted guid [] := fun heq => by cases heq
  rw [VerifiedJoin.messageArrives]
  cases hmessages : s.toClient with
  | nil => exact ⟨hwanted, htoHost, hpackets, htoClient⟩
  | cons message messages =>
    rw [hmessages] at htoClient
    cases message with
    | start list =>
      rw [kept, Bool.and_eq_true, Bool.or_eq_true, Bool.not_eq_true', decide_eq_false_iff_not,
        decide_eq_true_eq] at htoClient
      obtain ⟨hwanted', hlisted⟩ := wanted_start connectionState hwanted
        fun hknown => htoClient.1.resolve_left fun hnot => hnot hknown
      refine ⟨hwanted', ?_, hpackets, ?_⟩
      · intro packet hpacket
        rcases List.mem_append.mp hpacket with hpacket | hpacket
        · exact htoHost packet hpacket
        · exact hwanted'.sent hpacket
      · exact kept_mono htoClient.2 fun hknown =>
          decide_eq_true (hlisted (of_decide_eq_true hknown))
    | failed => exact ⟨hnone, by simpa [receive] using htoHost, hpackets, htoClient⟩
    | accepted toDisconnect toAdd =>
      exact ⟨hnone, by simpa [receive] using htoHost, hpackets, htoClient⟩
    | rejected => exact ⟨hnone, by simpa [receive] using htoHost, hpackets, htoClient⟩

/-! ### What the host sends -/

theorem castSize_eq {α : Type} {list : List α} (h : list.length < 65536) :
    castSize list = list := by
  rw [castSize, Nat.mod_eq_of_lt h, List.take_length]

theorem lists_verifiedJoinStart {participants : List ℕ} (hlength : participants.length < 65536)
    (hguid : guid ∈ participants) (addresses : ℕ → Option ℕ) :
    Lists guid (verifiedJoinStart addresses participants) := by
  intro list heq
  rw [verifiedJoinStart, castSize_eq (by rwa [List.length_map])] at heq
  obtain rfl := JoinMessage.start.inj heq
  rw [List.map_map]
  exact List.mem_map.mpr ⟨guid, hguid, rfl⟩

theorem guids_addParticipant (ourGuid rakNetGuid : ℕ) (m : FullyConnectedMesh2) :
    (m.addParticipant ourGuid rakNetGuid).guids =
      if rakNetGuid ∈ m.guids then m.guids else m.guids ++ [rakNetGuid] := by
  by_cases hmem : rakNetGuid ∈ m.guids
  · rw [if_pos hmem, addParticipant, addParticipantInternal_known ourGuid hmem]
    exact learned_guids m rakNetGuid 0
  · rw [if_neg hmem, addParticipant, addParticipantInternal,
      if_neg fun h => hmem (hasParticipant_iff.mp h)]
    simp [FullyConnectedMesh2.guids]

theorem guids_onClosedConnection (ourGuid closed : ℕ) (m : FullyConnectedMesh2) :
    (m.onClosedConnection ourGuid closed).guids.length ≤ m.guids.length ∧
      ∀ guid ∈ (m.onClosedConnection ourGuid closed).guids, guid ∈ m.guids := by
  by_cases hmem : closed ∈ m.guids
  · obtain ⟨participant, -, hperm⟩ := onClosedConnection_list ourGuid hmem
    have hguids : m.guids.Perm
        (participant.rakNetGuid :: (m.onClosedConnection ourGuid closed).guids) :=
      hperm.map FCM2Participant.rakNetGuid
    constructor
    · have hlength := hguids.length_eq
      rw [List.length_cons] at hlength
      omega
    · exact fun guid hguid => hguids.symm.subset (List.mem_cons_of_mem _ hguid)
  · rw [onClosedConnection_unknown ourGuid hmem]
    exact ⟨Nat.le_refl _, fun guid hguid => hguid⟩

theorem onVerifiedJoinCapable_spec {m : FullyConnectedMesh2} {packet : VerifiedJoinInProgress}
    (hlength : m.guids.length < 65536) (addresses : ℕ → Option ℕ) (hguid : guid ∈ m.guids)
    (hall : (∀ guid ∈ m.guids, stateOf guid packet ≠ some .failed) → AllOrNone m.guids packet) :
    (∀ message ∈ (m.onVerifiedJoinCapable addresses packet).1, Lists guid message) ∧
      ((m.onVerifiedJoinCapable addresses packet).2 = true →
        stateOf guid packet ≠ some .failed) := by
  have hcapable : m.onVerifiedJoinCapable addresses packet =
      if (categorizeVJIP m.guids packet).participatingMembersOnClientFailed ≠ [] then
        ([.failed], false)
      else if (categorizeVJIP m.guids packet).participatingMembersNotOnClient ≠ [] then
        ([verifiedJoinStart addresses
          (categorizeVJIP m.guids packet).participatingMembersNotOnClient], false)
      else ([], true) := rfl
  rw [hcapable]
  split
  · constructor
    · intro message hmessage list heq
      rw [List.mem_singleton.mp hmessage] at heq
      cases heq
    · exact fun h => by cases h
  · rename_i hfailed
    have hnot := failed_eq_nil.mp (Decidable.not_not.mp hfailed)
    split
    · rename_i hne
      rw [notOnClient_complete (hall hnot) hne]
      constructor
      · intro message hmessage
        rw [List.mem_singleton.mp hmessage]
        exact lists_verifiedJoinStart hlength hguid addresses
      · exact fun h => by cases h
    · exact ⟨List.forall_mem_nil _, fun _ => hnot guid hguid⟩

section Respond

variable {ourGuid client : ℕ} {clientConnected accept : Bool} {addresses : ℕ → Option ℕ}
  {packet : VerifiedJoinInProgress} {m : FullyConnectedMesh2}

theorem respond_eq :
    m.respondOnVerifiedJoinCapable ourGuid client clientConnected addresses packet accept =
      if (categorizeVJIP m.guids packet).participatingMembersNotOnClient ≠ [] then
        (m, [verifiedJoinStart addresses
          (categorizeVJIP m.guids packet).participatingMembersNotOnClient])
      else if accept then
        (if clientConnected then m.addParticipant ourGuid client else m,
          (m.guids.filter (· = client)).map (fun _ => JoinMessage.accepted
            (categorizeVJIP m.guids packet).clientMembersNotParticipatingSucceeded
            (categorizeVJIP m.guids packet).participatingMembersOnClientSucceeded) ++
          [.accepted (categorizeVJIP m.guids packet).clientMembersNotParticipatingSucceeded
            (categorizeVJIP m.guids packet).participatingMembersOnClientSucceeded])
      else (m, [.rejected]) := rfl

theorem respond_lists (hlength : m.guids.length < 65536) (hall : AllOrNone m.guids packet)
    (hguid : guid ∈ m.guids ∨
      (categorizeVJIP m.guids packet).participatingMembersNotOnClient = []) :
    ∀ message ∈ (m.respondOnVerifiedJoinCapable ourGuid client clientConnected addresses packet
      accept).2, Lists guid message := by
  rw [respond_eq]
  split
  · rename_i hne
    intro message hmessage
    rw [List.mem_singleton.mp hmessage, notOnClient_complete hall hne]
    exact lists_verifiedJoinStart hlength (hguid.resolve_right hne) addresses
  · split
    · intro message hmessage list heq
      rcases List.mem_append.mp hmessage with hmessage | hmessage
      · obtain ⟨_, -, rfl⟩ := List.mem_map.mp hmessage
        cases heq
      · rw [List.mem_singleton.mp hmessage] at heq
        cases heq
    · intro message hmessage list heq
      rw [List.mem_singleton.mp hmessage] at heq
      cases heq

end Respond

/-! ### Runs -/

/-- `RakPeer` has at most 65535 connections. The connection of the client is lost with
`lostClient`. -/
def Possible (client : ℕ) (s : VerifiedJoin) : Operation → Prop
  | .addParticipant rakNetGuid => rakNetGuid ∈ s.host.guids ∨ s.host.guids.length < 65535
  | .closedConnection rakNetGuid => rakNetGuid ≠ client
  | .respond clientConnected _ _ _ =>
    clientConnected = true → client ∈ s.host.guids ∨ s.host.guids.length < 65535
  | _ => True

/-- An update that the host sends has all participants, and no system that the client has given up
becomes a participant. -/
def Handled (client : ℕ) (s : VerifiedJoin) : Operation → Prop
  | .addParticipant rakNetGuid => s.Joinable rakNetGuid
  | .capableArrives _ => ∀ packet ∈ s.toHost.head?,
    (∀ guid ∈ s.host.guids, stateOf guid packet ≠ some .failed) → AllOrNone s.host.guids packet
  | .respond clientConnected _ index accept => ∀ packet ∈ s.packets[index]?,
    AllOrNone s.host.guids packet ∧ (clientConnected = true → accept = true →
      (∀ guid ∈ s.host.guids, stateOf guid packet ≠ none) → s.Joinable client)
  | _ => True

def Reachable (ourGuid client : ℕ) (allowed : VerifiedJoin → Operation → Prop) :
    VerifiedJoin → Prop :=
  GuardedRun.Reachable (perform ourGuid client) (fun s op => s.Possible client op ∧ allowed s op)
    start

structure Sound (s : VerifiedJoin) : Prop where
  joinable : ∀ guid ∈ s.host.guids, s.Joinable guid
  toHost : ∀ packet ∈ s.toHost, Finished packet
  packets : ∀ packet ∈ s.packets, Finished packet
  length : s.host.guids.length < 65536

variable {ourGuid client : ℕ}

theorem sound_start : start.Sound :=
  ⟨List.forall_mem_nil _, List.forall_mem_nil _, List.forall_mem_nil _, by decide⟩

theorem Sound.finished (h : s.Sound) (ourGuid client : ℕ) (op : Operation) :
    (∀ packet ∈ (s.perform ourGuid client op).toHost, Finished packet) ∧
      ∀ packet ∈ (s.perform ourGuid client op).packets, Finished packet := by
  cases op with
  | startVerifiedJoin addresses => exact ⟨h.toHost, h.packets⟩
  | addParticipant rakNetGuid => exact ⟨h.toHost, h.packets⟩
  | closedConnection rakNetGuid => exact ⟨h.toHost, h.packets⟩
  | lostClient => exact ⟨List.forall_mem_nil _, h.packets⟩
  | capableArrives addresses =>
    rw [perform, capableArrives]
    cases hhead : s.toHost with
    | nil => exact ⟨h.toHost, h.packets⟩
    | cons packet toHost =>
      have htoHost := h.toHost
      rw [hhead] at htoHost
      refine ⟨fun p hp => htoHost p (List.mem_cons_of_mem _ hp), ?_⟩
      intro p hp
      dsimp only at hp
      split at hp
      · rcases List.mem_append.mp hp with hp | hp
        · exact h.packets p hp
        · rw [List.mem_singleton.mp hp]
          exact htoHost packet List.mem_cons_self
      · exact h.packets p hp
  | respond clientConnected addresses index accept =>
    rw [perform, respond]
    split
    · exact ⟨h.toHost, h.packets⟩
    · exact ⟨h.toHost, h.packets⟩
  | messageArrives connectionState =>
    rw [perform, messageArrives]
    cases hmessages : s.toClient with
    | nil => exact ⟨h.toHost, h.packets⟩
    | cons message messages =>
      refine ⟨fun packet hpacket => ?_, h.packets⟩
      rcases List.mem_append.mp hpacket with hpacket | hpacket
      · exact h.toHost packet hpacket
      · cases message with
        | start list => exact finished_sent hpacket
        | failed => cases hpacket
        | accepted toDisconnect toAdd => cases hpacket
        | rejected => cases hpacket
  | connectionResult systemIdentifier succeeded =>
    rw [perform, connectionResult]
    cases hjoin : s.joinInProgress with
    | none => exact ⟨h.toHost, h.packets⟩
    | some vjip =>
      refine ⟨fun packet hpacket => ?_, h.packets⟩
      rcases List.mem_append.mp hpacket with hpacket | hpacket
      · exact h.toHost packet hpacket
      · rw [updateVerifiedJoinInProgressMember] at hpacket
        split at hpacket
        · cases hpacket
        · split at hpacket
          · exact finished_sent hpacket
          · cases hpacket

theorem Joinable.withHost (h : s.Joinable guid) (host : FullyConnectedMesh2) :
    Joinable { s with host := host } guid :=
  ⟨h.joinInProgress, h.toHost, h.packets, h.toClient⟩

theorem Sound.capableArrives (h : s.Sound) {addresses : ℕ → Option ℕ}
    (hhandled : s.Handled client (.capableArrives addresses)) :
    ∀ guid ∈ s.host.guids, (s.capableArrives addresses).Joinable guid := by
  intro guid hguid
  obtain ⟨hwanted, htoHost, hpackets, htoClient⟩ := h.joinable guid hguid
  rw [VerifiedJoin.capableArrives]
  cases hhead : s.toHost with
  | nil => exact ⟨hwanted, htoHost, hpackets, htoClient⟩
  | cons packet toHost =>
    rw [hhead] at htoHost
    obtain ⟨hlists, hfailed⟩ := onVerifiedJoinCapable_spec h.length addresses hguid
      (hhandled packet (by rw [hhead]; exact rfl))
    refine ⟨hwanted, fun p hp => htoHost p (List.mem_cons_of_mem _ hp), ?_,
      kept_append htoClient hlists⟩
    intro p hp
    dsimp only at hp
    split at hp
    · rename_i hgiven
      rcases List.mem_append.mp hp with hp | hp
      · exact hpackets p hp
      · rw [List.mem_singleton.mp hp]
        exact ⟨htoHost packet List.mem_cons_self, hfailed hgiven⟩
    · exact hpackets p hp

theorem Sound.respond (h : s.Sound) {clientConnected accept : Bool}
    {addresses : ℕ → Option ℕ} {index : ℕ}
    (hpossible : s.Possible client (.respond clientConnected addresses index accept))
    (hhandled : s.Handled client (.respond clientConnected addresses index accept)) :
    (∀ guid ∈ (s.respond ourGuid client clientConnected addresses index accept).host.guids,
      (s.respond ourGuid client clientConnected addresses index accept).Joinable guid) ∧
      (s.respond ourGuid client clientConnected addresses index accept).host.guids.length <
        65536 := by
  rw [VerifiedJoin.respond]
  cases hpacket : s.packets[index]? with
  | none => exact ⟨h.joinable, h.length⟩
  | some packet =>
    obtain ⟨hall, hclient⟩ := hhandled packet hpacket
    have hold : ∀ guid ∈ s.host.guids, Joinable { s with
        host := (s.host.respondOnVerifiedJoinCapable ourGuid client clientConnected addresses
          packet accept).1
        toClient := s.toClient ++ (s.host.respondOnVerifiedJoinCapable ourGuid client
          clientConnected addresses packet accept).2 } guid :=
      fun guid hguid => (h.joinable guid hguid).send _ (respond_lists h.length hall (.inl hguid))
    by_cases hadd : (categorizeVJIP s.host.guids packet).participatingMembersNotOnClient = [] ∧
        accept = true ∧ clientConnected = true
    · obtain ⟨hnil, haccept, hconnected⟩ := hadd
      have hguids : (s.host.respondOnVerifiedJoinCapable ourGuid client clientConnected addresses
          packet accept).1.guids =
          if client ∈ s.host.guids then s.host.guids else s.host.guids ++ [client] := by
        rw [respond_eq, if_neg (not_not_intro hnil), if_pos haccept, if_pos hconnected]
        exact guids_addParticipant ourGuid client s.host
      dsimp only
      rw [hguids]
      split
      · exact ⟨hold, h.length⟩
      · rename_i hnew
        constructor
        · intro guid hguid
          rcases List.mem_append.mp hguid with hguid | hguid
          · exact hold guid hguid
          · rw [List.mem_singleton.mp hguid]
            exact (hclient hconnected haccept (notOnClient_eq_nil.mp hnil)).send _
              (respond_lists h.length hall (.inr hnil))
        · have hlength := (hpossible hconnected).resolve_left hnew
          rw [List.length_append, List.length_singleton]
          omega
    · have hhost : (s.host.respondOnVerifiedJoinCapable ourGuid client clientConnected addresses
          packet accept).1 = s.host := by
        rw [respond_eq]
        split
        · rfl
        · rename_i hnil
          split
          · rename_i haccept
            exact if_neg fun hconnected =>
              hadd ⟨Decidable.not_not.mp hnil, haccept, hconnected⟩
          · rfl
      dsimp only
      rw [hhost]
      rw [hhost] at hold
      exact ⟨hold, h.length⟩

theorem Sound.perform (h : s.Sound) (op : Operation) (hpossible : s.Possible client op)
    (hhandled : s.Handled client op) : (s.perform ourGuid client op).Sound := by
  have hkey : (∀ guid ∈ (s.perform ourGuid client op).host.guids,
      (s.perform ourGuid client op).Joinable guid) ∧
      (s.perform ourGuid client op).host.guids.length < 65536 := by
    cases op with
    | startVerifiedJoin addresses =>
      refine ⟨fun guid hguid => (h.joinable guid hguid).send s.host ?_, h.length⟩
      intro message hmessage
      rw [List.mem_singleton.mp hmessage]
      exact lists_verifiedJoinStart h.length hguid addresses
    | addParticipant rakNetGuid =>
      change (∀ guid ∈ (s.host.addParticipant ourGuid rakNetGuid).guids, _) ∧
        (s.host.addParticipant ourGuid rakNetGuid).guids.length < 65536
      rw [guids_addParticipant]
      split
      · exact ⟨fun guid hguid => (h.joinable guid hguid).withHost _, h.length⟩
      · rename_i hnew
        constructor
        · intro guid hguid
          rcases List.mem_append.mp hguid with hguid | hguid
          · exact (h.joinable guid hguid).withHost _
          · rw [List.mem_singleton.mp hguid]
            exact Joinable.withHost hhandled _
        · have hlength := Or.resolve_left hpossible hnew
          rw [List.length_append, List.length_singleton]
          omega
    | closedConnection rakNetGuid =>
      obtain ⟨hlength, hmem⟩ := guids_onClosedConnection ourGuid rakNetGuid s.host
      exact ⟨fun guid hguid => (h.joinable guid (hmem guid hguid)).withHost _,
        Nat.lt_of_le_of_lt hlength h.length⟩
    | lostClient =>
      obtain ⟨hlength, hmem⟩ := guids_onClosedConnection ourGuid client s.host
      exact ⟨fun guid hguid => (h.joinable guid (hmem guid hguid)).lostClient ourGuid client,
        Nat.lt_of_le_of_lt hlength h.length⟩
    | capableArrives addresses =>
      have hhost : (s.capableArrives addresses).host = s.host := by
        rw [VerifiedJoin.capableArrives]
        split <;> rfl
      rw [VerifiedJoin.perform, hhost]
      exact ⟨h.capableArrives hhandled, h.length⟩
    | respond clientConnected addresses index accept => exact h.respond hpossible hhandled
    | messageArrives connectionState =>
      have hhost : (s.messageArrives connectionState).host = s.host := by
        rw [VerifiedJoin.messageArrives]
        split <;> rfl
      rw [VerifiedJoin.perform, hhost]
      exact ⟨fun guid hguid => (h.joinable guid hguid).messageArrives connectionState, h.length⟩
    | connectionResult systemIdentifier succeeded =>
      have hhost : (s.connectionResult systemIdentifier succeeded).host = s.host := by
        rw [VerifiedJoin.connectionResult]
        split <;> rfl
      rw [VerifiedJoin.perform, hhost]
      exact ⟨fun guid hguid => (h.joinable guid hguid).connectionResult systemIdentifier succeeded,
        h.length⟩
  obtain ⟨htoHost, hpackets⟩ := h.finished ourGuid client op
  exact ⟨hkey.1, htoHost, hpackets, hkey.2⟩

theorem Reachable.sound (h : Reachable ourGuid client (Handled client) s) : s.Sound :=
  GuardedRun.Reachable.invariant (I := Sound) h sound_start
    fun _ op hsound hop => hsound.perform op hop.1 hop.2

end Steps

/-- The answer accepts the client. -/
def Accepts (answer : List JoinMessage) : Prop :=
  ∃ toDisconnect toAdd, JoinMessage.accepted toDisconnect toAdd ∈ answer

/-- The system is in the packet as one that the client is connected to. -/
def ConnectedIn (packet : VerifiedJoinInProgress) (guid : ℕ) : Prop :=
  ∃ member ∈ packet, member.guid = guid ∧ member.joinInProgressState = .connected

/-- A client that the answer to a packet accepts is connected to all participants. -/
def AdmitsConnected (ourGuid client : ℕ) (s : VerifiedJoin) : Prop :=
  ∀ packet ∈ s.packets, ∀ clientConnected addresses,
    Accepts (s.host.respondOnVerifiedJoinCapable ourGuid client clientConnected addresses packet
      true).2 → ∀ guid ∈ s.host.guids, ConnectedIn packet guid

theorem not_notOnClient_of_accepts {ourGuid client : ℕ} {clientConnected accept : Bool}
    {addresses : ℕ → Option ℕ} {packet : VerifiedJoinInProgress} {m : FullyConnectedMesh2}
    (h : Accepts (m.respondOnVerifiedJoinCapable ourGuid client clientConnected addresses packet
      accept).2) : ∀ guid ∈ m.guids, stateOf guid packet ≠ none := by
  obtain ⟨toDisconnect, toAdd, h⟩ := h
  rw [respond_eq] at h
  split at h
  · cases List.mem_singleton.mp h
  · rename_i hnil
    exact notOnClient_eq_nil.mp (Decidable.not_not.mp hnil)

/-- In every run whose steps are handled an accepted client is connected to all participants. -/
theorem accepted_connected {ourGuid client : ℕ} {s : VerifiedJoin}
    (h : Reachable ourGuid client (Handled client) s) : s.AdmitsConnected ourGuid client := by
  intro packet hpacket clientConnected addresses haccepts guid hguid
  have hsound := h.sound
  obtain ⟨hwanted, hfailed⟩ := (hsound.joinable guid hguid).packets packet hpacket
  cases hstate : stateOf guid packet with
  | none => exact (not_notOnClient_of_accepts haccepts guid hguid hstate).elim
  | some state =>
    obtain ⟨member, hmember, hmemberGuid, hmemberState⟩ := stateOf_mem hstate
    refine ⟨member, hmember, hmemberGuid, ?_⟩
    cases state with
    | processing => exact (hsound.packets packet hpacket member hmember hmemberState).elim
    | failed => exact (hfailed hstate).elim
    | connected => exact hmemberState
    | unnecessary => exact (hwanted hstate).elim

def noConnection : ℕ → ConnectionState := fun _ => .notConnected

/-- A client connects to the only participant. -/
def joinOperations : List Operation :=
  [.addParticipant 1, .startVerifiedJoin some, .messageArrives noConnection,
    .connectionResult (.rakNetGuid 1) true]

/-- Then its packet arrives. -/
def joined : VerifiedJoin :=
  (joinOperations ++ [Operation.capableArrives some]).foldl (perform 0 9) start

/-- Or another system has become a participant before that, and the client connects to it too. -/
def updated : VerifiedJoin :=
  (joinOperations ++ [Operation.addParticipant 2, .capableArrives some,
    .messageArrives noConnection, .connectionResult (.rakNetGuid 2) true,
    .capableArrives some]).foldl (perform 0 9) start

theorem reachable_joined : Reachable 0 9 (Handled 9) joined := by
  refine GuardedRun.Reachable.run .start (.intro ⟨.inr ?_, ?_⟩ (.intro ⟨trivial, trivial⟩
    (.intro ⟨trivial, trivial⟩ (.intro ⟨trivial, trivial⟩ (.intro ⟨trivial, ?_⟩ trivial)))))
  · decide
  · change start.Joinable 1
    decide
  · intro packet hpacket _
    obtain rfl := Option.some.inj hpacket
    decide

/-- The packet of the joined client, the answer to which accepts it. -/
theorem accepted_connected_joined :
    joined.packets ≠ [] ∧ joined.AdmitsConnected 0 9 :=
  ⟨by decide, accepted_connected reachable_joined⟩

theorem reachable_updated : Reachable 0 9 (fun _ _ => True) updated := by
  refine GuardedRun.Reachable.run .start (.intro ⟨.inr ?_, trivial⟩ (.intro ⟨trivial, trivial⟩
    (.intro ⟨trivial, trivial⟩ (.intro ⟨trivial, trivial⟩ (.intro ⟨.inr ?_, trivial⟩
      (.intro ⟨trivial, trivial⟩ (.intro ⟨trivial, trivial⟩ (.intro ⟨trivial, trivial⟩
        (.intro ⟨trivial, trivial⟩ trivial)))))))))
  · decide
  · decide

instance (packet : VerifiedJoinInProgress) (guid : ℕ) : Decidable (ConnectedIn packet guid) :=
  inferInstanceAs (Decidable (∃ member ∈ packet, _ ∧ _))

/-- The update of the host has the new participant only, so that the client gives up the other one
and is accepted. -/
theorem updated_not_connected :
    Reachable 0 9 (fun _ _ => True) updated ∧ ¬updated.AdmitsConnected 0 9 := by
  refine ⟨reachable_updated, ?_⟩
  intro hadmits
  have hconnected := hadmits
    [⟨some 1, 1, .unnecessary, false⟩, ⟨some 2, 2, .connected, false⟩] (by decide) true some
    ⟨[], [1, 2], by decide⟩ 1 (by decide)
  exact absurd hconnected (by decide)

end VerifiedJoin

end SLikeNet
