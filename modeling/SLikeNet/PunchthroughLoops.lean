import SLikeNet.PunchthroughAttempts

/-! The loops of `NatPunchthroughServer` on its view: what is started, told, given up and given
back. -/

namespace SLikeNet

namespace NatPunchthroughServer

open View

variable {G : Type} [DecidableEq G] {s : NatPunchthroughServer G} {p q : UserPointer G} {a : ℕ}
  {ca : ConnectionAttempt G} {except : UserPointer G → Prop}

/-! ### Single changes -/

omit [DecidableEq G] in
theorem exists_user {l : List ℕ} (h : s.view.edges p = some l) :
    ∃ user, s.user p = some user ∧ user.connectionAttempts = l :=
  Option.map_eq_some_iff.mp h

omit [DecidableEq G] in
theorem edges_of_user {user : NatUser} (h : s.user p = some user) :
    s.view.edges p = some user.connectionAttempts := by
  simp [view, h]

omit [DecidableEq G] in
theorem ready_of_user {user : NatUser} (h : s.user p = some user) :
    s.view.ready p = some user.isReady := by
  simp [view, h]

theorem users_of_attempt (hs : s.view.Sound) (ha : s.view.attempt a = some ca) :
    ∃ sender recipient, s.user ca.sender = some sender ∧
      s.user ca.recipient = some recipient := by
  obtain ⟨l, hl, -⟩ := hs.edges_of_end ha (.inl rfl)
  obtain ⟨k, hk, -⟩ := hs.edges_of_end ha (.inr rfl)
  obtain ⟨sender, hsender, -⟩ := exists_user hl
  obtain ⟨recipient, hrecipient, -⟩ := exists_user hk
  exact ⟨sender, recipient, hsender, hrecipient⟩

omit [DecidableEq G] in
theorem view_send (receiver : UserPointer G) (message : NatMessage G) :
    (s.send receiver message).view =
      { s.view with sent := s.view.sent ++ [(receiver, message)] } :=
  rfl

theorem view_setUser (user : Option NatUser) :
    (s.setUser p user).view = { s.view with
      edges := Function.update s.view.edges p (user.map (·.connectionAttempts))
      ready := Function.update s.view.ready p (user.map (·.isReady)) } := by
  have hmap : ∀ {β : Type} (f : NatUser → β),
      (fun q => (Function.update s.user p user q).map f) =
        Function.update (fun q => (s.user q).map f) p (user.map f) := by
    intro β f
    funext q
    by_cases hq : q = p
    · subst hq
      simp only [Function.update_self]
    · simp only [Function.update_of_ne hq]
  simp only [view, setUser, hmap]

omit [DecidableEq G] in
theorem view_setAttempt (attempt : Option (ConnectionAttempt G)) :
    (s.setAttempt a attempt).view =
      { s.view with attempt := Function.update s.view.attempt a attempt } :=
  rfl

theorem modifyUser_eq {user : NatUser} (h : s.user p = some user) (f : NatUser → NatUser) :
    s.modifyUser p f = some (s.setUser p (some (f user))) := by
  rw [modifyUser, h]
  rfl

/-- A change that neither the lists nor the readiness show. -/
theorem modifyUser_view {l : List ℕ} (h : s.view.edges p = some l) {f : NatUser → NatUser}
    (hf : ∀ user, (f user).connectionAttempts = user.connectionAttempts ∧
      (f user).isReady = user.isReady) :
    ∃ s', s.modifyUser p f = some s' ∧ s'.view = s.view := by
  obtain ⟨user, huser, -⟩ := exists_user h
  refine ⟨_, modifyUser_eq huser f, ?_⟩
  rw [view_setUser, Option.map_some, Option.map_some, (hf user).1, (hf user).2,
    ← edges_of_user huser, ← ready_of_user huser, Function.update_eq_self, Function.update_eq_self]

theorem setReady_view {l : List ℕ} (h : s.view.edges p = some l) (isReady : Bool) :
    ∃ s', s.setReady p isReady = some s' ∧
      s'.view = { s.view with ready := Function.update s.view.ready p (some isReady) } := by
  obtain ⟨user, huser, -⟩ := exists_user h
  refine ⟨_, modifyUser_eq huser _, ?_⟩
  rw [view_setUser, Option.map_some, Option.map_some, ← edges_of_user huser,
    Function.update_eq_self]

theorem modifyList_view {l : List ℕ} (h : s.view.edges p = some l) (g : List ℕ → List ℕ) :
    ∃ s', (s.modifyUser p fun user =>
        { user with connectionAttempts := g user.connectionAttempts }) = some s' ∧
      s'.view = { s.view with edges := Function.update s.view.edges p (some (g l)) } := by
  obtain ⟨user, huser, rfl⟩ := exists_user h
  refine ⟨_, modifyUser_eq huser _, ?_⟩
  rw [view_setUser, Option.map_some, Option.map_some, ← ready_of_user huser,
    Function.update_eq_self]

theorem deleteConnectionAttempt_view {l : List ℕ} (h : s.view.edges p = some l) (hmem : a ∈ l)
    (ha : s.view.attempt a = some ca) :
    ∃ s', s.deleteConnectionAttempt p a = some s' ∧
      s'.view = { s.view with
        attempt := Function.update s.view.attempt a none
        edges := Function.update s.view.edges p (some (l.erase a)) } := by
  obtain ⟨s', hs', hview⟩ := modifyList_view (s := s.setAttempt a none) h (·.erase a)
  obtain ⟨user, huser, rfl⟩ := exists_user h
  refine ⟨s', ?_, hview⟩
  have ha' : s.attempt a = some ca := ha
  rw [deleteConnectionAttempt, huser]
  simp only [Option.bind_eq_bind, Option.bind_some, if_pos hmem, ha']
  exact hs'

/-- The pointer to an attempt is taken from one list, and the attempt is given back with the
other. -/
theorem removal_view (hs : s.view.Sound) (ha : s.view.attempt a = some ca)
    (hends : (p = ca.sender ∧ q = ca.recipient) ∨
      (p = ca.recipient ∧ q = ca.sender)) :
    ∃ s₁ s₂ l k, s.derefConnectionAttempt p a = some s₁ ∧
      s₁.deleteConnectionAttempt q a = some s₂ ∧ s.view.edges p = some l ∧
        s.view.edges q = some k ∧ s₂.view = s.view.remove a p q l k := by
  have hp : ca.sender = p ∨ ca.recipient = p :=
    hends.imp (fun h => h.1.symm) fun h => h.1.symm
  have hq : ca.sender = q ∨ ca.recipient = q :=
    hends.symm.imp (fun h => h.2.symm) fun h => h.2.symm
  have hne : p ≠ q := by
    rcases hends with ⟨rfl, rfl⟩ | ⟨rfl, rfl⟩
    · exact hs.ne ha
    · exact (hs.ne ha).symm
  obtain ⟨l, hl, -⟩ := hs.edges_of_end ha hp
  obtain ⟨k, hk, hak⟩ := hs.edges_of_end ha hq
  obtain ⟨s₁, hs₁, hview₁⟩ := modifyList_view hl (·.erase a)
  have hk₁ : s₁.view.edges q = some k := by
    rw [hview₁]
    exact (Function.update_of_ne hne.symm ..).trans hk
  have ha₁ : s₁.view.attempt a = some ca := by rw [hview₁]; exact ha
  obtain ⟨s₂, hs₂, hview₂⟩ := deleteConnectionAttempt_view hk₁ hak ha₁
  refine ⟨s₁, s₂, l, k, hs₁, hs₂, hl, hk, ?_⟩
  rw [hview₂, hview₁]
  rfl

/-! ### The start of an attempt -/

theorem startAttempt_view (hs : s.view.Sound) (ha : s.view.attempt a = some ca)
    (time : ℕ) : ∃ s', s.startAttempt a ca.sender ca.recipient time =
      some s' ∧ s'.view = s.view.begin a ca time := by
  obtain ⟨l, hl, -⟩ := hs.edges_of_end ha (.inl rfl)
  obtain ⟨k, hk, -⟩ := hs.edges_of_end ha (.inr rfl)
  obtain ⟨s₁, hs₁, hview₁⟩ := setReady_view hl false
  have hk₁ : s₁.view.edges ca.recipient = some k := by rw [hview₁]; exact hk
  obtain ⟨s₂, hs₂, hview₂⟩ := setReady_view hk₁ false
  have ha₂ : s₂.attempt a = some ca := by
    show s₂.view.attempt a = _
    rw [hview₂, hview₁]
    exact ha
  let started : ConnectionAttempt G :=
    { ca with attemptPhase := .gettingRecentPorts, startTime := time }
  have hl₃ : (s₂.setAttempt a (some started)).view.edges ca.sender = some l := by
    rw [view_setAttempt, hview₂, hview₁]
    exact hl
  obtain ⟨s₃, hs₃, hview₃⟩ := modifyUser_view hl₃
    (f := fun user => { user with mostRecentPort := 0 }) fun _ => ⟨rfl, rfl⟩
  have hk₃ : s₃.view.edges ca.recipient = some k := by
    rw [hview₃, view_setAttempt, hview₂, hview₁]
    exact hk
  obtain ⟨s₄, hs₄, hview₄⟩ := modifyUser_view hk₃
    (f := fun user => { user with mostRecentPort := 0 }) fun _ => ⟨rfl, rfl⟩
  refine ⟨(s₄.send ca.sender (.getMostRecentPort ca.sessionId)).send
    ca.recipient (.getMostRecentPort ca.sessionId), ?_, ?_⟩
  · simp only [startAttempt, hs₁, hs₂, ha₂, Option.bind_eq_bind, Option.bind_some]
    rw [hs₃, Option.bind_some, hs₄]
    rfl
  · rw [view_send, view_send, hview₄, hview₃, view_setAttempt, hview₂, hview₁]
    simp only [View.begin, List.append_assoc, List.cons_append, List.nil_append]
    rfl

/-- Either an attempt of the user is started, or no other user of its attempts is ready. -/
theorem startLoop_view (hs : s.view.Sound) (time : ℕ) : ∀ {connectionAttempts : List ℕ},
    (∀ a ∈ connectionAttempts, ∃ ca, s.view.attempt a = some ca ∧
      (ca.sender = p ∨ ca.recipient = p)) →
    ∃ s', s.startLoop p time connectionAttempts = some s' ∧
      ((s' = s ∧ ∀ a ∈ connectionAttempts, ∀ ca,
          s.view.attempt a = some ca →
            s.view.ready (ca.other p) ≠ some true) ∨
        ∃ a ca, s.view.attempt a = some ca ∧
          (ca.sender = p ∨ ca.recipient = p) ∧
            s'.view = s.view.begin a ca time)
  | [], _ => ⟨s, rfl, .inl ⟨rfl, fun _ h => absurd h List.not_mem_nil⟩⟩
  | a :: connectionAttempts, hattempts => by
    obtain ⟨ca, ha, hp⟩ := hattempts a List.mem_cons_self
    have hother : ca.sender = ca.other p ∨
        ca.recipient = ca.other p := by
      rw [ConnectionAttempt.other]
      split
      · exact .inr rfl
      · exact .inl rfl
    have hpair : (if ca.sender = p then (p, ca.recipient)
        else (ca.sender, p)) =
          (ca.sender, ca.recipient) := by
      split
      · next h => rw [h]
      · next h => rw [hp.resolve_left h]
    obtain ⟨l, hl, -⟩ := hs.edges_of_end ha hother
    obtain ⟨otherUser, hotherUser, -⟩ := exists_user hl
    have ha' : s.attempt a = some ca := ha
    by_cases hisReady : otherUser.isReady = true
    · obtain ⟨s', hs', hview⟩ := startAttempt_view hs ha time
      refine ⟨s', ?_, .inr ⟨a, ca, ha, hp, hview⟩⟩
      simp only [startLoop, ha', hpair, hotherUser, Option.bind_eq_bind, Option.bind_some,
        if_pos hisReady, hs']
    · obtain ⟨s', hs', hcases⟩ := startLoop_view hs time fun b hb =>
        hattempts b (List.mem_cons_of_mem a hb)
      refine ⟨s', ?_, hcases.imp_left fun ⟨heq, hrest⟩ => ⟨heq, fun b hb cb hcb => ?_⟩⟩
      · simp only [startLoop, ha', hpair, hotherUser, Option.bind_eq_bind, Option.bind_some]
        rw [if_neg hisReady, hs']
      · rcases List.mem_cons.mp hb with rfl | hb
        · obtain rfl := Option.some.inj (ha.symm.trans hcb)
          rw [ready_of_user hotherUser]
          exact fun h => hisReady (Option.some.inj h)
        · exact hrest b hb cb hcb

/-- What an operation on the attempts leaves as it is. -/
structure SameUsers (s s' : NatPunchthroughServer G) : Prop where
  users : s'.view.users = s.view.users
  edges : ∀ p l, s.view.edges p = some l → ∃ l', s'.view.edges p = some l'

omit [DecidableEq G] in
theorem SameUsers.rfl : SameUsers s s := ⟨Eq.refl _, fun _ l h => ⟨l, h⟩⟩

omit [DecidableEq G] in
theorem SameUsers.trans {s' s'' : NatPunchthroughServer G} (h : SameUsers s s')
    (h' : SameUsers s' s'') : SameUsers s s'' :=
  ⟨h'.users.trans h.users, fun p l hl => by
    obtain ⟨l', hl'⟩ := h.edges p l hl
    exact h'.edges p l' hl'⟩

/-- After `StartPunchthroughForUser` no attempt of the user waits without need. -/
theorem startPunchthroughForUser_sound (hs : s.view.Sound)
    (hwaiting : s.view.Waiting fun q => q = p ∨ except q) {l : List ℕ}
    (hl : s.view.edges p = some l) (time : ℕ) :
    ∃ s', s.startPunchthroughForUser p time = some s' ∧ s'.view.Sound ∧ s'.view.Waiting except ∧
      SameUsers s s' := by
  obtain ⟨user, huser, rfl⟩ := exists_user hl
  by_cases hready : user.isReady = true
  · obtain ⟨s', hs', hcases⟩ := startLoop_view hs time fun a ha =>
      hs.attempt_of_mem hl ha
    refine ⟨s', ?_, ?_⟩
    · simp only [startPunchthroughForUser, huser, Option.bind_eq_bind, Option.bind_some,
        if_pos hready, hs']
    · rcases hcases with ⟨rfl, hnone⟩ | ⟨a, ca, ha, hp, hview⟩
      · refine ⟨hs, fun a ca ha hphase hsender hrecipient => ?_, .rfl⟩
        have hothers : ∀ r, ca.sender = p ∨ ca.recipient = p → ca.other p = r →
            s'.view.ready r ≠ some true := fun r hp hr => hr ▸
          hnone a ((hs.incidence.mem_of_end (ends_eq ha) hl) hp) ca ha
        refine (hwaiting a ca ha hphase hsender hrecipient).imp (fun h => ?_) fun h => ?_
        · refine h.resolve_left fun hp => hothers ca.recipient (.inl hp) ?_ hrecipient
          rw [ConnectionAttempt.other, if_pos hp]
        · refine h.resolve_left fun hp => hothers ca.sender (.inr hp) ?_ hsender
          rw [ConnectionAttempt.other, if_neg (hp ▸ hs.ne ha)]
      · rw [hview]
        exact ⟨hs.begin ha time, hwaiting.begin hp time, by rw [hview]; rfl, fun q k hk =>
          ⟨k, by rw [hview]; exact hk⟩⟩
  · refine ⟨s, ?_, hs, fun a ca ha hphase hsender hrecipient => ?_, .rfl⟩
    · simp only [startPunchthroughForUser, huser, Option.bind_eq_bind, Option.bind_some]
      rw [if_neg hready]
    · have hp : ∀ q, s.view.ready q = some true → q ≠ p := by
        rintro q hq rfl
        rw [ready_of_user huser] at hq
        exact hready (Option.some.inj hq)
      exact (hwaiting a ca ha hphase hsender hrecipient).imp (·.resolve_left (hp _ hsender))
        (·.resolve_left (hp _ hrecipient))

/-- The users of a list are started one after the other. -/
theorem startEach_sound (time : ℕ) : ∀ {freed : List (UserPointer G)}
    {s : NatPunchthroughServer G}, s.view.Sound → s.view.Waiting (· ∈ freed) →
    (∀ q ∈ freed, ∃ l, s.view.edges q = some l) →
    ∃ s', freed.foldlM (fun s p => s.startPunchthroughForUser p time) s = some s' ∧
      s'.view.Sound ∧ s'.view.Waiting fun _ => False
  | [], s, hs, hwaiting, _ => ⟨s, rfl, hs, hwaiting.mono fun _ h => List.not_mem_nil h⟩
  | p :: freed, s, hs, hwaiting, hedges => by
    obtain ⟨l, hl⟩ := hedges p List.mem_cons_self
    obtain ⟨s₁, hs₁, hsound, hwaiting₁, hsame⟩ := startPunchthroughForUser_sound hs
      (hwaiting.mono fun q hq => List.mem_cons.mp hq) hl time
    obtain ⟨s', hs', hsound', hwaiting'⟩ := startEach_sound time hsound hwaiting₁ fun q hq => by
      obtain ⟨k, hk⟩ := hedges q (List.mem_cons_of_mem p hq)
      exact hsame.edges q k hk
    refine ⟨s', ?_, hsound', hwaiting'⟩
    rw [List.foldlM_cons, hs₁]
    exact hs'

/-- The attempts go on, and no attempt between two ready users waits. -/
structure Settled (s : NatPunchthroughServer G) : Prop where
  sound : s.view.Sound
  waiting : s.view.Waiting fun _ => False

/-! ### The loops -/

theorem connect_settled (hs : s.Settled) (ha : s.view.attempt a = some ca)
    (attemptTime : ℕ) : ∃ s', s.connect a ca attemptTime = some s' ∧ s'.Settled := by
  obtain ⟨sender, recipient, hsender, hrecipient⟩ := users_of_attempt hs.sound ha
  let told := (s.send ca.recipient
    (.connectAtTime attemptTime ca.sessionId sender.mostRecentPort
      ca.sender.guid false)).send ca.sender
    (.connectAtTime attemptTime ca.sessionId recipient.mostRecentPort
      ca.recipient.guid true)
  have hview : told.view = { s.view with sent := s.view.sent ++
      [(ca.recipient, .connectAtTime attemptTime ca.sessionId
          sender.mostRecentPort ca.sender.guid false),
        (ca.sender, .connectAtTime attemptTime ca.sessionId
          recipient.mostRecentPort ca.recipient.guid true)] } := by
    rw [view_send, view_send, List.append_assoc]
    rfl
  have hne := hs.sound.ne ha
  have hsound : told.view.Sound := by
    rw [hview]
    refine hs.sound.send fun r => ?_
    by_cases hr : ca.recipient = r <;>
      by_cases hr' : ca.sender = r <;> simp [notice, hr, hr']
  have hlast : ∀ r, r = ca.sender ∨ r = ca.recipient →
      told.view.lastNotice r = some true := by
    intro r hr
    rw [hview, lastNotice_append]
    rcases hr with rfl | rfl
    · simp [notice, hne.symm]
    · simp [notice, hne]
  have ha' : told.view.attempt a = some ca := ha
  obtain ⟨s₁, s₂, l', k', hs₁, hs₂, hl', hk', hview₂⟩ :=
    removal_view hsound ha' (.inr ⟨rfl, rfl⟩)
  refine ⟨s₂, ?_, ⟨?_, ?_⟩⟩
  · simp only [connect, hsender, hrecipient, Option.bind_eq_bind, Option.bind_some]
    exact (congrArg (· >>= _) hs₁).trans hs₂
  · rw [hview₂]
    exact hsound.remove ha' (.inr ⟨rfl, rfl⟩) hl' hk' fun _ r hr _ => hlast r hr
  · have hwaiting : told.view.Waiting fun _ => False := hs.waiting
    rw [hview₂]
    exact hwaiting.remove

theorem connectLoop_settled (hs : s.Settled) (sessionId attemptTime : ℕ) :
    ∀ {connectionAttempts : List ℕ}, (∀ a ∈ connectionAttempts, ∃ ca,
      s.view.attempt a = some ca) →
    ∃ s', s.connectLoop sessionId attemptTime connectionAttempts = some s' ∧ s'.Settled
  | [], _ => ⟨s, rfl, hs⟩
  | a :: connectionAttempts, hattempts => by
    obtain ⟨ca, ha⟩ := hattempts a List.mem_cons_self
    obtain ⟨sender, recipient, hsender, hrecipient⟩ := users_of_attempt hs.sound ha
    have ha' : s.attempt a = some ca := ha
    simp only [connectLoop, ha', hsender, hrecipient, Option.bind_eq_bind, Option.bind_some]
    split
    · exact connect_settled hs ha attemptTime
    · exact connectLoop_settled hs sessionId attemptTime fun b hb =>
        hattempts b (List.mem_cons_of_mem a hb)

theorem giveUp_settled (hs : s.Settled) (ha : s.view.attempt a = some ca)
    (time : ℕ) : ∃ s', s.giveUp ca.sender a ca time = some s' ∧
      s'.Settled ∧ SameUsers s s' := by
  obtain ⟨sender, recipient, hsender, hrecipient⟩ := users_of_attempt hs.sound ha
  have hl := edges_of_user hsender
  have hk := edges_of_user hrecipient
  let told := (s.send ca.sender
    (.targetUnresponsive ca.recipient.guid ca.sessionId)).send
    ca.recipient
    (.targetUnresponsive ca.sender.guid ca.sessionId)
  have htold : told.view.Sound := by
    show View.Sound { s.view with sent := s.view.sent ++ [_] ++ [_] }
    rw [List.append_assoc]
    exact hs.sound.send fun r => by simp [notice]
  have hl₀ : told.view.edges ca.sender = some sender.connectionAttempts := hl
  obtain ⟨s₁, hs₁, hview₁⟩ := setReady_view hl₀ true
  have hk₁ : s₁.view.edges ca.recipient = some recipient.connectionAttempts := by
    rw [hview₁]
    exact hk
  obtain ⟨s₂, hs₂, hview₂⟩ := setReady_view hk₁ true
  have hsound₂ : s₂.view.Sound := by
    rw [hview₂, hview₁]
    exact htold.set_ready.set_ready
  have hwaiting₂ : s₂.view.Waiting fun q => q = ca.sender ∨
      q = ca.recipient ∨ False := by
    rw [hview₂, hview₁]
    have hwaiting : told.view.Waiting fun _ => False := hs.waiting
    exact hwaiting.set_ready.set_ready.mono fun q hq => or_left_comm.mp hq
  have hready : ∀ r, r = ca.sender ∨ r = ca.recipient →
      s₂.view.ready r = some true := by
    intro r hr
    rw [hview₂, hview₁]
    by_cases hrecipient : r = ca.recipient
    · exact hrecipient ▸ Function.update_self ..
    · refine (Function.update_of_ne hrecipient ..).trans ?_
      exact hr.resolve_right hrecipient ▸ Function.update_self ..
  have ha₂ : s₂.view.attempt a = some ca := by rw [hview₂, hview₁]; exact ha
  obtain ⟨s₃, s₄, l', k', hs₃, hs₄, hl', hk', hview₄⟩ :=
    removal_view hsound₂ ha₂ (.inl ⟨rfl, rfl⟩)
  have hsound₄ : s₄.view.Sound := by
    rw [hview₄]
    refine hsound₂.remove ha₂ (.inl ⟨rfl, rfl⟩) hl' hk' fun _ r hr hfalse => ?_
    rw [hready r hr] at hfalse
    cases hfalse
  have hwaiting₄ : s₄.view.Waiting fun q => q = ca.sender ∨
      q = ca.recipient ∨ False := hview₄ ▸ hwaiting₂.remove
  have hsame : SameUsers s s₄ := ⟨by rw [hview₄, View.remove, hview₂, hview₁]; rfl, fun r m hr => by
    rw [hview₄]
    refine IncidenceLists.exists_update (IncidenceLists.exists_update ⟨m, ?_⟩)
    rw [hview₂, hview₁]
    exact hr⟩
  obtain ⟨l₄, hl₄⟩ := hsame.edges _ _ hl
  obtain ⟨s₅, hs₅, hsound₅, hwaiting₅, hsame₅⟩ :=
    startPunchthroughForUser_sound hsound₄ hwaiting₄ hl₄ time
  obtain ⟨k₅, hk₅⟩ := (hsame.trans hsame₅).edges _ _ hk
  obtain ⟨s₆, hs₆, hsound₆, hwaiting₆, hsame₆⟩ :=
    startPunchthroughForUser_sound hsound₅ hwaiting₅ hk₅ time
  refine ⟨s₆, ?_, ⟨hsound₆, hwaiting₆⟩, (hsame.trans hsame₅).trans hsame₆⟩
  have hs₁' : (told.setReady ca.sender true) = some s₁ := hs₁
  simp only [giveUp, hsender, hrecipient, Option.bind_eq_bind, Option.bind_some]
  rw [hs₁', Option.bind_some, hs₂, Option.bind_some, hs₃, Option.bind_some, hs₄, Option.bind_some,
    hs₅, Option.bind_some, hs₆]

theorem updateAttempts_settled (hs : s.Settled) (time : ℕ) : ∀ {connectionAttempts : List ℕ},
    (∀ a ∈ connectionAttempts, ∃ ca,
      s.view.attempt a = some ca) →
    ∃ s', s.updateAttempts p time connectionAttempts = some s' ∧ s'.Settled ∧ SameUsers s s'
  | [], _ => ⟨s, rfl, hs, .rfl⟩
  | a :: connectionAttempts, hattempts => by
    obtain ⟨ca, ha⟩ := hattempts a List.mem_cons_self
    have ha' : s.attempt a = some ca := ha
    simp only [updateAttempts, ha', Option.bind_eq_bind, Option.bind_some]
    split
    · next h =>
      obtain ⟨rfl, -⟩ := h
      exact giveUp_settled hs ha time
    · exact updateAttempts_settled hs time fun b hb => hattempts b (List.mem_cons_of_mem a hb)

theorem updateUsers_settled (time : ℕ) : ∀ {users : List (UserPointer G)}
    {s : NatPunchthroughServer G}, s.Settled → (∀ p ∈ users, ∃ l, s.view.edges p = some l) →
    ∃ s', users.foldlM (updateUser time) s = some s' ∧ s'.Settled
  | [], s, hs, _ => ⟨s, rfl, hs⟩
  | p :: users, s, hs, hedges => by
    obtain ⟨l, hl⟩ := hedges p List.mem_cons_self
    obtain ⟨user, huser, rfl⟩ := exists_user hl
    obtain ⟨s₁, hs₁, hsettled, hsame⟩ := updateAttempts_settled hs time fun a ha =>
      (hs.sound.attempt_of_mem hl ha).imp fun _ => And.left
    obtain ⟨s', hs', hsettled'⟩ := updateUsers_settled time hsettled fun q hq => by
      obtain ⟨k, hk⟩ := hedges q (List.mem_cons_of_mem p hq)
      exact hsame.edges q k hk
    refine ⟨s', ?_, hsettled'⟩
    have huser' : updateUser time s p = some s₁ := by
      rw [updateUser, huser]
      exact hs₁
    rw [List.foldlM_cons, huser']
    exact hs'

/-- What is known while the connection of a user is closed: its attempts still to be given back, and
the others that were in an attempt in progress with it. -/
structure Closing (p : UserPointer G) (attempts : List ℕ) (freed : List (UserPointer G))
    (s : NatPunchthroughServer G) : Prop where
  sound : (s.view.closing p attempts).Sound
  waiting : (s.view.closing p attempts).Waiting fun q => q = p ∨ q ∈ freed
  freed_exists : ∀ q ∈ freed, q ≠ p ∧ ∃ l, s.view.edges q = some l

theorem closing_set_ready (v : View G) (hne : q ≠ p) (attempts : List ℕ) :
    View.closing { v with ready := Function.update v.ready q (some true) } p attempts =
      { v.closing p attempts with
        ready := Function.update (v.closing p attempts).ready q (some true) } := by
  simp only [View.closing]
  rw [Function.update_comm hne]

theorem closing_remove (v : View G) (hne : q ≠ p) (attempts k : List ℕ) :
    View.closing { v with
        attempt := Function.update v.attempt a none
        edges := Function.update v.edges q (some (k.erase a)) } p attempts =
      (v.closing p (a :: attempts)).remove a p q (a :: attempts) k := by
  simp only [View.remove, View.closing, List.erase_cons_head, Function.update_idem]
  rw [Function.update_comm hne]

theorem freeUser_closing {attempts k : List ℕ} {freed : List (UserPointer G)}
    (hs : s.Closing p attempts freed) (hne : q ≠ p) (hk : s.view.edges q = some k)
    (attemptPhase : AttemptPhase) :
    ∃ s' freed', s.freeUser attemptPhase q freed = some (s', freed') ∧
      s'.Closing p attempts freed' ∧ s'.view.edges = s.view.edges ∧
      s'.view.attempt = s.view.attempt ∧ s'.view.users = s.view.users ∧
      (attemptPhase = .gettingRecentPorts → s'.view.ready q = some true) := by
  cases attemptPhase with
  | notStarted => exact ⟨s, freed, rfl, hs, rfl, rfl, rfl, fun h => nomatch h⟩
  | gettingRecentPorts =>
    obtain ⟨s', hs', hview⟩ := setReady_view hk true
    have hclosing : s'.view.closing p attempts = _ := hview ▸ closing_set_ready s.view hne attempts
    refine ⟨s', freed ++ [q], ?_, ⟨?_, ?_, fun r hr => ?_⟩, ?_, ?_, ?_, fun _ => ?_⟩
    · rw [freeUser, hs']
      rfl
    · exact hclosing ▸ hs.sound.set_ready
    · refine (hclosing ▸ hs.waiting.set_ready).mono fun r hr => ?_
      rcases hr with hr | hr | hr
      · exact .inr (List.mem_append_right freed (List.mem_singleton.mpr hr))
      · exact .inl hr
      · exact .inr (List.mem_append_left [q] hr)
    · rw [hview]
      rcases List.mem_append.mp hr with hr | hr
      · exact hs.freed_exists r hr
      · rw [List.mem_singleton.mp hr]
        exact ⟨hne, k, hk⟩
    · rw [hview]
    · rw [hview]
    · rw [hview]
    · rw [hview]
      exact Function.update_self ..

/-- The attempts of a user whose connection is closed are given back one after the other. -/
theorem closeLoop_closing : ∀ (attempts processed : List ℕ) (freed : List (UserPointer G))
    (s : NatPunchthroughServer G) (fuel : ℕ), s.Closing p attempts freed →
    s.view.edges p = some (processed ++ attempts) → attempts.length < fuel →
    ∃ s' freed', closeLoop p fuel s freed processed.length = some (s', freed') ∧
      s'.Closing p [] freed' ∧ s'.view.users = s.view.users
  | _, _, _, _, 0, _, _, hfuel => absurd hfuel (Nat.not_lt_zero _)
  | [], processed, freed, s, fuel + 1, hs, hp, _ => by
    obtain ⟨user, huser, hlist⟩ := exists_user hp
    refine ⟨s, freed, ?_, hs, rfl⟩
    rw [List.append_nil] at hlist
    simp [closeLoop, huser, hlist]
  | a :: attempts, processed, freed, s, fuel + 1, hs, hp, hfuel => by
    obtain ⟨user, huser, hlist⟩ := exists_user hp
    have hindex : user.connectionAttempts[processed.length]? = some a := by
      rw [hlist, List.getElem?_append_right (Nat.le_refl _), Nat.sub_self, List.getElem?_cons_zero]
    obtain ⟨ca, ha, hend⟩ := hs.sound.attempt_of_mem (Function.update_self ..) List.mem_cons_self
    let other := if ca.recipient = p then ca.sender else ca.recipient
    have hends : (p = ca.sender ∧ other = ca.recipient) ∨
        (p = ca.recipient ∧ other = ca.sender) := by
      by_cases h : ca.recipient = p
      · exact .inr ⟨h.symm, if_pos h⟩
      · exact .inl ⟨(hend.resolve_right h).symm, if_neg h⟩
    have hne : other ≠ p := by
      rcases hends with ⟨h, h'⟩ | ⟨h, h'⟩
      · rw [h, h']
        exact (hs.sound.ne ha).symm
      · rw [h, h']
        exact hs.sound.ne ha
    obtain ⟨k, hk, hak⟩ := hs.sound.edges_of_end ha
      (hends.symm.imp (fun h => h.2.symm) fun h => h.2.symm)
    have hk₀ : s.view.edges other = some k := (Function.update_of_ne hne ..).symm.trans hk
    obtain ⟨otherUser, hotherUser, -⟩ := exists_user hk₀
    let told := s.send other (.connectionToTargetLost p.guid ca.sessionId)
    have htold : told.Closing p (a :: attempts) freed :=
      ⟨hs.sound.send fun r => by simp [notice], hs.waiting, hs.freed_exists⟩
    obtain ⟨s₁, freed₁, hs₁, hclosing, hedges, hattempt, husers, hready⟩ :=
      freeUser_closing htold hne hk₀ ca.attemptPhase
    have hk₁ : s₁.view.edges other = some k := by rw [hedges]; exact hk₀
    have ha₁ : s₁.view.attempt a = some ca := by rw [hattempt]; exact ha
    obtain ⟨s₂, hs₂, hview₂⟩ := deleteConnectionAttempt_view hk₁ hak ha₁
    have hremoved : s₂.view.closing p attempts = _ :=
      hview₂ ▸ closing_remove s₁.view hne attempts k
    have hclosing₂ : s₂.Closing p attempts freed₁ := by
      refine ⟨?_, hremoved ▸ hclosing.waiting.remove, fun r hr => ?_⟩
      · refine hremoved ▸ hclosing.sound.remove ha₁ hends (Function.update_self ..)
          ((Function.update_of_ne hne ..).trans hk₁) fun hphase r hr hfalse => ?_
        have hr' : r = p ∨ r = other := by
          rcases hends with ⟨h, h'⟩ | ⟨h, h'⟩
          · rwa [h, h']
          · rw [h, h']
            exact hr.symm
        rcases hr' with hr' | hr'
        · rw [hr'] at hfalse
          cases (Function.update_self ..).symm.trans hfalse
        · rw [hr'] at hfalse
          have hfalse' := (Function.update_of_ne hne ..).symm.trans hfalse
          rw [hready hphase] at hfalse'
          cases hfalse'
      · obtain ⟨hrp, l, hl⟩ := hclosing.freed_exists r hr
        refine ⟨hrp, ?_⟩
        rw [hview₂]
        by_cases hro : r = other
        · rw [hro]
          exact ⟨_, Function.update_self ..⟩
        · exact ⟨l, (Function.update_of_ne hro ..).trans hl⟩
    have hp₂ : s₂.view.edges p = some (processed ++ [a] ++ attempts) := by
      rw [hview₂, List.append_assoc]
      refine (Function.update_of_ne hne.symm ..).trans ?_
      rw [hedges]
      exact hp
    obtain ⟨s', freed', hs', hclosing', husers'⟩ := closeLoop_closing attempts (processed ++ [a])
      freed₁ s₂ fuel hclosing₂ hp₂ (Nat.lt_of_succ_lt_succ hfuel)
    refine ⟨s', freed', ?_, hclosing', husers'.trans ?_⟩
    · have ha' : s.attempt a = some ca := ha
      have hs₁' : told.freeUser ca.attemptPhase other freed = some (s₁, freed₁) := hs₁
      simp only [closeLoop, huser, hindex, ha', Option.bind_eq_bind, Option.bind_some]
      rw [hotherUser, Option.bind_some, hs₁', Option.bind_some]
      show (s₁.deleteConnectionAttempt other a).bind _ = _
      rw [hs₂, Option.bind_some, ← hs', List.length_append]
      rfl
    · rw [hview₂]
      exact husers

end NatPunchthroughServer

end SLikeNet
