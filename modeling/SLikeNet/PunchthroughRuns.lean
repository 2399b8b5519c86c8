import SLikeNet.PunchthroughLoops

/-! The operations of `NatPunchthroughServer` and its runs. -/

namespace SLikeNet

namespace OrderedList

theorem insert_eq_or_perm {D : Type*} (cf : D → D → Ordering) (orderedList : List D) (data : D) :
    insert cf orderedList data = orderedList ∨
      (insert cf orderedList data).Perm (data :: orderedList) := by
  cases hfound : getIndexFromKey cf orderedList data with
  | mk index objectExists =>
    rw [insert, hfound]
    dsimp only
    split
    · exact .inl rfl
    · split
      · exact .inr List.perm_append_comm
      · next h => exact .inr (List.perm_insertIdx _ _ (Nat.le_of_not_ge h))

end OrderedList

namespace NatPunchthroughServer

open View

variable {G : Type} [DecidableEq G] {s : NatPunchthroughServer G} {p q : UserPointer G}

/-! ### The operations -/

theorem setReady_start (hs : s.Settled) {l : List ℕ} (hl : s.view.edges p = some l) (time : ℕ) :
    ∃ s', (s.setReady p true).bind (fun s => s.startPunchthroughForUser p time) = some s' ∧
      s'.Settled := by
  obtain ⟨s₁, hs₁, hview⟩ := setReady_view hl true
  have hl₁ : s₁.view.edges p = some l := by rw [hview]; exact hl
  have hsound : s₁.view.Sound := hview ▸ hs.sound.set_ready
  have hwaiting : s₁.view.Waiting fun q => q = p ∨ False := hview ▸ hs.waiting.set_ready
  obtain ⟨s', hs', hsound', hwaiting', -⟩ :=
    startPunchthroughForUser_sound hsound hwaiting hl₁ time
  exact ⟨s', by rw [hs₁]; exact hs', hsound', hwaiting'⟩

/-- Whether two users have an attempt is read off the list of one of them. -/
theorem hasConnectionAttemptToUser_eq (hs : s.view.Sound) (other : UserPointer G) :
    ∀ {connectionAttempts : List ℕ}, (∀ a ∈ connectionAttempts, ∃ connectionAttempt,
      s.view.attempt a = some connectionAttempt) →
    ∃ isInProgress, s.hasConnectionAttemptToUser other connectionAttempts = some isInProgress ∧
      (isInProgress = false → ∀ a ∈ connectionAttempts, ∀ connectionAttempt,
        s.view.attempt a = some connectionAttempt →
          connectionAttempt.sender ≠ other ∧ connectionAttempt.recipient ≠ other)
  | [], _ => ⟨false, rfl, fun _ _ h => absurd h List.not_mem_nil⟩
  | a :: connectionAttempts, hattempts => by
    obtain ⟨ca, ha⟩ := hattempts a List.mem_cons_self
    obtain ⟨sender, recipient, hsender, hrecipient⟩ := users_of_attempt hs ha
    have ha' : s.attempt a = some ca := ha
    simp only [hasConnectionAttemptToUser, ha', hsender, hrecipient, Option.bind_eq_bind,
      Option.bind_some]
    split
    · exact ⟨true, rfl, fun h => nomatch h⟩
    · next hguid =>
      split
      · exact ⟨true, rfl, fun h => nomatch h⟩
      · next hguid' =>
        obtain ⟨isInProgress, heq, hfree⟩ := hasConnectionAttemptToUser_eq hs other fun b hb =>
          hattempts b (List.mem_cons_of_mem a hb)
        refine ⟨isInProgress, heq, fun hfalse b hb cb hcb => ?_⟩
        rcases List.mem_cons.mp hb with rfl | hb
        · obtain rfl := Option.some.inj (ha.symm.trans hcb)
          exact ⟨fun h => hguid' (h ▸ rfl), fun h => hguid (h ▸ rfl)⟩
        · exact hfree hfalse b hb cb hcb

section Users

variable {G : Type} [LinearOrder G] {s : NatPunchthroughServer G} {p q : UserPointer G}

theorem findUser_eq {guid : G} {i : ℕ} (h : s.findUser guid = some (i, p)) :
    s.users[i]? = some p ∧ p.guid = guid := by
  rw [findUser] at h
  cases hfound : OrderedList.getIndexFromKey natPunchthroughUserComp s.users guid with
  | mk index objectExists =>
    rw [hfound] at h
    cases objectExists with
    | false => exact nomatch h
    | true =>
      obtain ⟨q, hq, heq⟩ := Option.map_eq_some_iff.mp h
      obtain ⟨rfl, rfl⟩ := Prod.mk.inj heq
      obtain ⟨d, hd, hcomp⟩ := OrderedList.searchLoop_matches hfound
      obtain rfl := Option.some.inj (hq.symm.trans hd)
      exact ⟨hq, (compare_eq_iff_eq.mp hcomp).symm⟩

theorem findUser_exists (hs : s.view.Sound) {guid : G} {i : ℕ}
    (h : s.findUser guid = some (i, p)) : ∃ l, s.view.edges p = some l :=
  hs.user_exists p (List.mem_of_getElem? (findUser_eq h).1)

theorem onNewConnection_settled (hs : s.Settled) (guid : G) :
    (s.onNewConnection guid).Settled := by
  have hview : (s.onNewConnection guid).view = s.view.addUser ⟨guid, s.nextUser⟩
      (OrderedList.insert (fun a b => natPunchthroughUserComp a.guid b) s.users
        ⟨guid, s.nextUser⟩) := by
    have hset := view_setUser (s := s) (p := ⟨guid, s.nextUser⟩) (some {})
    show View.mk _ (s.setUser _ _).view.edges (s.setUser _ _).view.ready _ _ _ _ = _
    rw [hset]
    rfl
  have hinsert := OrderedList.insert_eq_or_perm
    (fun a b => natPunchthroughUserComp a.guid b) s.users ⟨guid, s.nextUser⟩
  have hnew : (⟨guid, s.nextUser⟩ : UserPointer G) ∉ s.users := fun hmem => by
    obtain ⟨l, hl⟩ := hs.sound.user_exists _ hmem
    exact (hs.sound.user_lt _ l hl).ne rfl
  refine ⟨hview ▸ hs.sound.addUser rfl ?_ fun q hq => ?_, hview ▸ hs.waiting.addUser hs.sound rfl⟩
  · rcases hinsert with h | h
    · rw [h]
      exact hs.sound.users_nodup
    · exact h.nodup_iff.mpr (List.nodup_cons.mpr ⟨hnew, hs.sound.users_nodup⟩)
  · rcases hinsert with h | h
    · rw [h] at hq
      exact .inr hq
    · exact List.mem_cons.mp (h.mem_iff.mp hq)

theorem addAttempt_settled (hs : s.Settled) (hne : p ≠ q) {l k : List ℕ}
    (hl : s.view.edges p = some l) (hk : s.view.edges q = some k) (recipientGuid : G)
    (sessionId time : ℕ) :
    ∃ s', s.addAttempt p q recipientGuid sessionId time = some s' ∧ s'.Settled := by
  obtain ⟨theirs, htheirs, rfl⟩ := exists_user hk
  obtain ⟨isInProgress, hprogress, hfree⟩ := hasConnectionAttemptToUser_eq hs.sound p fun a ha =>
    (hs.sound.attempt_of_mem hk ha).imp fun _ => And.left
  simp only [addAttempt, htheirs, hprogress, Option.bind_eq_bind, Option.bind_some]
  cases isInProgress with
  | true => exact ⟨_, if_pos rfl, hs.sound.send fun r => by simp [notice], hs.waiting⟩
  | false =>
    let attempt : ConnectionAttempt G := { sender := p, recipient := q, sessionId }
    let added : NatPunchthroughServer G :=
      { s.setAttempt s.nextAttempt (some attempt) with nextAttempt := s.nextAttempt + 1 }
    have hl₀ : added.view.edges p = some l := hl
    obtain ⟨s₁, hs₁, hview₁⟩ := modifyList_view hl₀ (· ++ [s.nextAttempt])
    have hk₁ : s₁.view.edges q = some theirs.connectionAttempts := by
      rw [hview₁]
      exact (Function.update_of_ne hne.symm ..).trans hk
    obtain ⟨s₂, hs₂, hview₂⟩ := modifyList_view hk₁ (· ++ [s.nextAttempt])
    have hview : s₂.view = s.view.add attempt l theirs.connectionAttempts := by
      rw [hview₂, hview₁]
      rfl
    have hsound : s₂.view.Sound := hview ▸ hs.sound.add hne hl hk (hfree rfl)
    have hwaiting : s₂.view.Waiting fun r => r = p ∨ False := hview ▸ hs.waiting.add
    have hl₂ : s₂.view.edges p = some (l ++ [s.nextAttempt]) := by
      rw [hview]
      exact (Function.update_of_ne hne ..).trans (Function.update_self ..)
    obtain ⟨s', hs', hsound', hwaiting', -⟩ :=
      startPunchthroughForUser_sound hsound hwaiting hl₂ time
    refine ⟨s', ?_, hsound', hwaiting'⟩
    rw [if_neg Bool.false_ne_true]
    have hs₁' : added.modifyUser p (fun user =>
      { user with connectionAttempts := user.connectionAttempts ++ [s.nextAttempt] }) = some s₁ :=
        hs₁
    rw [hs₁', Option.bind_some, hs₂, Option.bind_some, hs']

theorem onNATPunchthroughRequest_settled (hs : s.Settled) {senderGuid recipientGuid : G}
    (hsender : (s.findUser senderGuid).isSome) (hne : recipientGuid ≠ senderGuid) (time : ℕ) :
    ∃ s', s.onNATPunchthroughRequest senderGuid recipientGuid time = some s' ∧ s'.Settled := by
  obtain ⟨⟨i, p⟩, hfind⟩ := Option.isSome_iff_exists.mp hsender
  obtain ⟨l, hl⟩ := findUser_exists hs.sound hfind
  let s₀ : NatPunchthroughServer G := { s with sessionId := (s.sessionId + 1) % 2 ^ 16 }
  have hs₀ : s₀.Settled := ⟨hs.sound, hs.waiting⟩
  rw [onNATPunchthroughRequest, hfind]
  cases hfind' : s.findUser recipientGuid with
  | none =>
    exact ⟨_, rfl, hs₀.sound.send fun r => by simp [notice], hs₀.waiting⟩
  | some found =>
    obtain ⟨k, hk⟩ := findUser_exists hs.sound hfind'
    have hpq : p ≠ found.2 := by
      rintro rfl
      exact hne ((findUser_eq hfind').2.symm.trans (findUser_eq hfind).2)
    exact addAttempt_settled hs₀ hpq hl hk recipientGuid s.sessionId time

theorem onClientReady_settled (hs : s.Settled) (guid : G) (time : ℕ) :
    ∃ s', s.onClientReady guid time = some s' ∧ s'.Settled := by
  rw [onClientReady]
  cases hfind : s.findUser guid with
  | none => exact ⟨s, rfl, hs⟩
  | some found =>
    obtain ⟨l, hl⟩ := findUser_exists hs.sound hfind
    exact setReady_start hs hl time

theorem onGetMostRecentPort_settled (hs : s.Settled) (guid : G)
    (sessionId mostRecentPort time : ℕ) (targetPing senderPing : Option ℕ) :
    ∃ s', s.onGetMostRecentPort guid sessionId mostRecentPort time targetPing senderPing =
      some s' ∧ s'.Settled := by
  rw [onGetMostRecentPort]
  cases hfind : s.findUser guid with
  | none => exact ⟨s, rfl, hs⟩
  | some found =>
    obtain ⟨l, hl⟩ := findUser_exists hs.sound hfind
    obtain ⟨s₁, hs₁, hview⟩ := modifyUser_view hl
      (f := fun user => { user with mostRecentPort }) fun _ => ⟨rfl, rfl⟩
    have hs₁' : s₁.Settled := ⟨hview ▸ hs.sound, hview ▸ hs.waiting⟩
    have hl₁ : s₁.view.edges found.2 = some l := hview ▸ hl
    obtain ⟨user, huser, rfl⟩ := exists_user hl₁
    obtain ⟨s', hs', hsettled⟩ := connectLoop_settled hs₁' sessionId
      (simultaneousAttemptTime time targetPing senderPing) fun a ha =>
        (hs₁'.sound.attempt_of_mem hl₁ ha).imp fun _ => And.left
    refine ⟨s', ?_, hsettled⟩
    show (s.modifyUser found.2 _).bind _ = _
    rw [hs₁, Option.bind_some]
    show (s₁.user found.2).bind _ = _
    rw [huser, Option.bind_some, hs']

theorem update_settled (hs : s.Settled) (time : ℕ) :
    ∃ s', s.update time = some s' ∧ s'.Settled := by
  rw [update]
  split
  · have hupdated : Settled { s with lastUpdate := time } := ⟨hs.sound, hs.waiting⟩
    exact updateUsers_settled time hupdated hs.sound.user_exists
  · exact ⟨s, rfl, hs⟩

theorem onClosedConnection_settled (hs : s.Settled) (guid : G) (time : ℕ) :
    ∃ s', s.onClosedConnection guid time = some s' ∧ s'.Settled := by
  rw [onClosedConnection]
  cases hfind : s.findUser guid with
  | none => exact ⟨s, rfl, hs⟩
  | some found =>
    obtain ⟨i, p⟩ := found
    obtain ⟨l, hl⟩ := findUser_exists hs.sound hfind
    obtain ⟨user, huser, rfl⟩ := exists_user hl
    have hclosing : s.Closing p user.connectionAttempts [] := by
      have hview : s.view.closing p user.connectionAttempts =
          { s.view with ready := Function.update s.view.ready p (some true) } := by
        rw [View.closing, ← hl, Function.update_eq_self]
      refine ⟨hview ▸ hs.sound.set_ready, ?_, fun q hq => absurd hq List.not_mem_nil⟩
      exact (hview ▸ hs.waiting.set_ready).mono fun q hq => hq.imp_right False.elim
    obtain ⟨s₁, freed, hs₁, hclosed, husers⟩ := closeLoop_closing _ [] _ s
      (user.connectionAttempts.length + 1) hclosing hl (Nat.lt_succ_self _)
    have husers' : s₁.users = s.users := husers
    have hnodup : s.users.Nodup := hs.sound.users_nodup
    have hmem : ∀ q ∈ s₁.users.eraseIdx i, q ≠ p ∧ q ∈ s₁.users := by
      intro q hq
      refine ⟨fun hqp => ?_, List.mem_of_mem_eraseIdx hq⟩
      obtain ⟨j, hj, hjq⟩ := List.mem_eraseIdx_iff_getElem?.mp hq
      rw [hqp, husers'] at hjq
      obtain ⟨hlt, -⟩ := List.getElem?_eq_some_iff.mp hjq
      exact hj ((List.getElem?_inj hlt hnodup).mp (hjq.trans (findUser_eq hfind).1.symm))
    let closed : NatPunchthroughServer G :=
      { s₁.setUser p none with users := s₁.users.eraseIdx i }
    have hview : closed.view = s₁.view.removeUser p (s₁.users.eraseIdx i) := by
      have hset := view_setUser (s := s₁) (p := p) none
      show View.mk _ (s₁.setUser p none).view.edges (s₁.setUser p none).view.ready _ _ _ _ = _
      rw [hset]
      rfl
    have hsound : closed.view.Sound := hview ▸ hclosed.sound.removeUser
      ((husers' ▸ hnodup).sublist (List.eraseIdx_sublist ..)) hmem
    have hwaiting : closed.view.Waiting (· ∈ freed) :=
      hview ▸ hclosed.waiting.removeUser
    obtain ⟨s', hs', hsound', hwaiting'⟩ := startEach_sound time hsound hwaiting fun q hq => by
      obtain ⟨hqp, k, hk⟩ := hclosed.freed_exists q hq
      refine ⟨k, ?_⟩
      rw [hview]
      exact (Function.update_of_ne hqp ..).trans hk
    refine ⟨s', ?_, hsound', hwaiting'⟩
    show (s.user p).bind _ = _
    rw [huser, Option.bind_some]
    show (closeLoop p (user.connectionAttempts.length + 1) s [] 0).bind _ = _
    rw [show closeLoop p _ s [] 0 = _ from hs₁, Option.bind_some]
    exact hs'

/-! ### Runs -/

/-- The request is of a user that is connected, for another system. -/
def Allowed (s : NatPunchthroughServer G) : Operation G → Prop
  | .natPunchthroughRequest senderGuid recipientGuid _ =>
    (s.findUser senderGuid).isSome ∧ recipientGuid ≠ senderGuid
  | _ => True

inductive Reachable : NatPunchthroughServer G → Prop
  | initial : Reachable initial
  | perform {s s' : NatPunchthroughServer G} {op : Operation G} : Reachable s → s.Allowed op →
    s.perform op = some s' → Reachable s'

theorem initial_settled : (initial : NatPunchthroughServer G).Settled where
  sound := {
    incidence := IncidenceLists.empty_sound
    users_nodup := List.nodup_nil
    user_exists := fun _ h => absurd h List.not_mem_nil
    user_lt := fun _ _ h => nomatch h
    attempt_lt := fun _ _ h => nomatch h
    notReady := fun _ h => nomatch h }
  waiting _ _ h := nomatch h

/-- Every operation goes on without following a pointer to what was given back. -/
theorem perform_settled (hs : s.Settled) {op : Operation G} (hop : s.Allowed op) :
    ∃ s', s.perform op = some s' ∧ s'.Settled := by
  cases op with
  | newConnection guid => exact ⟨_, rfl, onNewConnection_settled hs guid⟩
  | closedConnection guid time => exact onClosedConnection_settled hs guid time
  | natPunchthroughRequest senderGuid recipientGuid time =>
    exact onNATPunchthroughRequest_settled hs hop.1 hop.2 time
  | clientReady guid time => exact onClientReady_settled hs guid time
  | getMostRecentPort guid sessionId mostRecentPort time targetPing senderPing =>
    exact onGetMostRecentPort_settled hs guid sessionId mostRecentPort time targetPing senderPing
  | update time => exact update_settled hs time

theorem Reachable.settled (h : Reachable s) : s.Settled := by
  induction h with
  | initial => exact initial_settled
  | perform _ hop hs' ih =>
    obtain ⟨s', heq, hsettled⟩ := perform_settled ih hop
    exact Option.some.inj (heq.symm.trans hs') ▸ hsettled

/-- In every run the server can take the next operation, each attempt is once in the lists of its
two users and in no other, and two users have one attempt at most. -/
theorem attempts_of_users (h : Reachable s) :
    (∀ op, s.Allowed op → (s.perform op).isSome) ∧
    (∀ a connectionAttempt, s.attempt a = some connectionAttempt →
      connectionAttempt.sender ≠ connectionAttempt.recipient ∧
      (∃ user, s.user connectionAttempt.sender = some user) ∧
      ∃ user, s.user connectionAttempt.recipient = some user) ∧
    (∀ p user, s.user p = some user → user.connectionAttempts.Nodup ∧
      ∀ a, a ∈ user.connectionAttempts ↔ ∃ connectionAttempt,
        s.attempt a = some connectionAttempt ∧
          (connectionAttempt.sender = p ∨ connectionAttempt.recipient = p)) ∧
    ∀ a b ca cb, s.attempt a = some ca → s.attempt b = some cb →
      (ca.sender = cb.sender ∧ ca.recipient = cb.recipient ∨
        ca.sender = cb.recipient ∧ ca.recipient = cb.sender) → a = b := by
  have hs := h.settled.sound
  refine ⟨fun op hop => ?_, fun a ca ha => ?_, fun p user huser => ?_,
    fun a b ca cb ha hb hpair => ?_⟩
  · obtain ⟨s', hs', -⟩ := perform_settled h.settled hop
    exact hs' ▸ rfl
  · obtain ⟨sender, recipient, hsender, hrecipient⟩ := users_of_attempt hs ha
    exact ⟨hs.ne ha, ⟨sender, hsender⟩, recipient, hrecipient⟩
  · have hl := edges_of_user huser
    refine ⟨hs.incidence.nodup p _ hl, fun a => ⟨fun ha => hs.attempt_of_mem hl ha, ?_⟩⟩
    rintro ⟨ca, ha, hp⟩
    exact hs.incidence.mem_of_end (ends_eq ha) hl hp
  · refine hs.incidence.unique a b _ _ (ends_eq ha) (ends_eq hb) (hpair.imp ?_ ?_)
    · rintro ⟨h, h'⟩
      rw [h, h']
    · rintro ⟨h, h'⟩
      rw [h, h']
      rfl

def twoUsers : NatPunchthroughServer ℕ :=
  (initial.onNewConnection 1).onNewConnection 2

theorem twoUsers_reachable : Reachable twoUsers :=
  .perform (.perform .initial (show Allowed _ (.newConnection 1) from trivial) rfl)
    (show Allowed _ (.newConnection 2) from trivial) rfl

theorem twoUsers_allowed : twoUsers.Allowed (.natPunchthroughRequest 1 2 5) :=
  ⟨by decide, by decide⟩

/-- One of two users asks for the other and leaves while the attempt is under way. -/
theorem sender_leaves : ∃ s, twoUsers.perform (.natPunchthroughRequest 1 2 5) = some s ∧
    (s.attempt 0).isSome = true ∧ (s.perform (.closedConnection 1 9)).isSome = true :=
  ⟨_, rfl, rfl, (attempts_of_users (.perform twoUsers_reachable twoUsers_allowed rfl)).1
    (.closedConnection 1 9) trivial⟩

/-- In every run an attempt that is not started waits for one of its users to be ready, and a user
that is not ready is in an attempt in progress or was last told to connect. -/
theorem attempts_under_way (h : Reachable s) :
    (∀ a connectionAttempt, s.attempt a = some connectionAttempt →
      connectionAttempt.attemptPhase = .notStarted →
        ∃ p user, (p = connectionAttempt.sender ∨ p = connectionAttempt.recipient) ∧
          s.user p = some user ∧ user.isReady = false) ∧
    ∀ p user, s.user p = some user → user.isReady = false →
      s.view.InProgress p ∨ s.view.lastNotice p = some true := by
  obtain ⟨hs, hwaiting⟩ := h.settled
  refine ⟨fun a ca ha hphase => ?_, fun p user huser hready => hs.notReady p ?_⟩
  · obtain ⟨sender, recipient, hsender, hrecipient⟩ := users_of_attempt hs ha
    cases hsr : sender.isReady with
    | false => exact ⟨_, sender, .inl rfl, hsender, hsr⟩
    | true =>
      refine ⟨_, recipient, .inr rfl, hrecipient, Bool.eq_false_iff.mpr fun hrr => ?_⟩
      exact (hwaiting a ca ha hphase (hsr ▸ ready_of_user hsender)
        (hrr ▸ ready_of_user hrecipient)).elim id id
  · rw [ready_of_user huser, hready]

theorem recipient_under_way : ∃ s, twoUsers.perform (.natPunchthroughRequest 1 2 5) = some s ∧
    (s.view.InProgress ⟨2, 1⟩ ∨ s.view.lastNotice ⟨2, 1⟩ = some true) :=
  ⟨_, rfl, (attempts_under_way (.perform twoUsers_reachable twoUsers_allowed rfl)).2 ⟨2, 1⟩ _
    rfl rfl⟩

/-- A user that asks for itself gets an attempt with itself, and when its connection is closed the
server goes on with the user that it has just given back. -/
theorem self_request_unsafe {guid : G} {i : ℕ} {user : NatUser}
    (hfind : s.findUser guid = some (i, p)) (huser : s.user p = some user)
    (hready : user.isReady = true) (hnone : user.connectionAttempts = []) (time time' : ℕ) :
    ∃ s', s.onNATPunchthroughRequest guid guid time = some s' ∧
      s'.onClosedConnection guid time' = none := by
  obtain ⟨s', hs', husers, huser', ha⟩ : ∃ s',
      s.onNATPunchthroughRequest guid guid time = some s' ∧ s'.users = s.users ∧
        s'.user p = some ⟨0, false, [s.nextAttempt, s.nextAttempt]⟩ ∧
        s'.attempt s.nextAttempt = some ⟨p, p, s.sessionId, time, .gettingRecentPorts⟩ := by
    simp [onNATPunchthroughRequest, hfind, addAttempt, huser, hnone, hasConnectionAttemptToUser,
      modifyUser, setUser, setAttempt, startPunchthroughForUser, hready, startLoop,
      ConnectionAttempt.other, startAttempt, setReady, send]
  refine ⟨s', hs', ?_⟩
  have hfind' : s'.findUser guid = some (i, p) := by rw [← hfind, findUser, findUser, husers]
  simp [onClosedConnection, hfind', huser', closeLoop, ha, freeUser, setReady, modifyUser, setUser,
    send, deleteConnectionAttempt, setAttempt, derefConnectionAttempt, startPunchthroughForUser]

theorem first_user_unsafe : ∃ s, twoUsers.onNATPunchthroughRequest 1 1 5 = some s ∧
    s.onClosedConnection 1 9 = none :=
  self_request_unsafe (p := ⟨1, 0⟩) (i := 0) rfl rfl rfl rfl 5 9

end Users

end NatPunchthroughServer

end SLikeNet
