import SLikeNet.NatPunchthroughServer

/-! What every operation of `NatPunchthroughServer` keeps: no pointer to memory that was given back
is followed, two systems have one attempt at most, and an attempt waits only for a user that is
not ready. -/

namespace SLikeNet

namespace NatPunchthroughServer

variable {G : Type}

/-- The server without the ports and the times. -/
structure View (G : Type) where
  users : List (UserPointer G)
  edges : UserPointer G → Option (List ℕ)
  ready : UserPointer G → Option Bool
  attempt : ℕ → Option (ConnectionAttempt G)
  nextUser : ℕ
  nextAttempt : ℕ
  sent : List (UserPointer G × NatMessage G)

def view (s : NatPunchthroughServer G) : View G where
  users := s.users
  edges p := (s.user p).map (·.connectionAttempts)
  ready p := (s.user p).map (·.isReady)
  attempt := s.attempt
  nextUser := s.nextUser
  nextAttempt := s.nextAttempt
  sent := s.sent

namespace View

open IncidenceLists (update_eq_some exists_update)

def ends (v : View G) (a : ℕ) : Option (UserPointer G × UserPointer G) :=
  (v.attempt a).map fun ca =>
    (ca.sender, ca.recipient)

def InProgress (v : View G) (p : UserPointer G) : Prop :=
  ∃ a ca, v.attempt a = some ca ∧
    (ca.sender = p ∨ ca.recipient = p) ∧
      ca.attemptPhase = .gettingRecentPorts

/-- Whether a message tells the user to connect, if it tells how an attempt goes on. -/
def notice [DecidableEq G] (p : UserPointer G) (message : UserPointer G × NatMessage G) :
    Option Bool :=
  if message.1 = p then
    match message.2 with
    | .getMostRecentPort _ => some false
    | .connectAtTime .. => some true
    | _ => none
  else none

/-- The last that the user was told about how its attempt goes on: to connect, or to send the
port. -/
def lastNotice [DecidableEq G] (v : View G) (p : UserPointer G) : Option Bool :=
  (v.sent.filterMap (notice p)).getLast?

/-- The users know their attempts, and a user that is not ready is in an attempt in progress or
was told to connect. -/
structure Sound [DecidableEq G] (v : View G) : Prop where
  incidence : IncidenceLists.Sound v.ends v.edges
  users_nodup : v.users.Nodup
  user_exists : ∀ p ∈ v.users, ∃ l, v.edges p = some l
  user_lt : ∀ p l, v.edges p = some l → p.address < v.nextUser
  attempt_lt : ∀ a ca, v.attempt a = some ca → a < v.nextAttempt
  notReady : ∀ p, v.ready p = some false → v.InProgress p ∨ v.lastNotice p = some true

/-- No attempt between two ready users waits, but for those of some users. -/
def Waiting (v : View G) (except : UserPointer G → Prop) : Prop :=
  ∀ a ca, v.attempt a = some ca →
    ca.attemptPhase = .notStarted →
      v.ready ca.sender = some true →
        v.ready ca.recipient = some true →
          except ca.sender ∨ except ca.recipient

theorem Waiting.mono {v : View G} {except except' : UserPointer G → Prop} (h : v.Waiting except)
    (himp : ∀ p, except p → except' p) : v.Waiting except' :=
  fun a ca ha hphase hsender hrecipient =>
    (h a ca ha hphase hsender hrecipient).imp (himp _) (himp _)

theorem ends_eq {v : View G} {a : ℕ} {ca : ConnectionAttempt G}
    (ha : v.attempt a = some ca) :
    v.ends a = some (ca.sender, ca.recipient) := by
  rw [ends, ha]
  rfl

variable [DecidableEq G] {v : View G} {p q : UserPointer G} {a : ℕ}
  {ca : ConnectionAttempt G} {except : UserPointer G → Prop}

theorem Sound.ne (h : v.Sound) (ha : v.attempt a = some ca) :
    ca.sender ≠ ca.recipient :=
  h.incidence.ne a _ (ends_eq ha)

theorem Sound.edges_of_end (h : v.Sound) (ha : v.attempt a = some ca)
    (hp : ca.sender = p ∨ ca.recipient = p) :
    ∃ l, v.edges p = some l ∧ a ∈ l := by
  obtain ⟨l, hl⟩ := h.incidence.exists_edges p a ⟨_, ends_eq ha, hp⟩
  exact ⟨l, hl, h.incidence.mem_of_end (ends_eq ha) hl hp⟩

theorem Sound.attempt_of_mem (h : v.Sound) {l : List ℕ} (hl : v.edges p = some l) (ha : a ∈ l) :
    ∃ ca, v.attempt a = some ca ∧
      (ca.sender = p ∨ ca.recipient = p) := by
  obtain ⟨ends, hends, hp⟩ := h.incidence.end_of_mem hl ha
  obtain ⟨ca, hattempt, rfl⟩ := Option.map_eq_some_iff.mp hends
  exact ⟨ca, hattempt, hp⟩

theorem lastNotice_append (v : View G) (messages : List (UserPointer G × NatMessage G)) :
    lastNotice { v with sent := v.sent ++ messages } p =
      (messages.filterMap (notice p)).getLast?.or (v.lastNotice p) := by
  rw [lastNotice, List.filterMap_append, List.getLast?_append]
  rfl

/-- Messages of which none is the last to ask a user for its port. -/
theorem Sound.send (h : v.Sound) {messages : List (UserPointer G × NatMessage G)}
    (hmessages : ∀ p, (messages.filterMap (notice p)).getLast? ≠ some false) :
    Sound { v with sent := v.sent ++ messages } where
  incidence := h.incidence
  users_nodup := h.users_nodup
  user_exists := h.user_exists
  user_lt := h.user_lt
  attempt_lt := h.attempt_lt
  notReady p hp := by
    refine (h.notReady p hp).imp_right fun hlast => ?_
    rw [lastNotice_append, hlast]
    cases hcase : (messages.filterMap (notice p)).getLast? with
    | none => rfl
    | some told =>
      cases told
      · exact absurd hcase (hmessages p)
      · rfl

theorem Sound.set_ready (h : v.Sound) :
    Sound { v with ready := Function.update v.ready p (some true) } where
  incidence := h.incidence
  users_nodup := h.users_nodup
  user_exists := h.user_exists
  user_lt := h.user_lt
  attempt_lt := h.attempt_lt
  notReady q hq := by
    rcases update_eq_some.mp hq with ⟨-, ⟨⟩⟩ | ⟨-, hq⟩
    exact h.notReady q hq

theorem Waiting.set_ready (h : v.Waiting except) :
    Waiting { v with ready := Function.update v.ready p (some true) }
      fun q => q = p ∨ except q := by
  intro a ca ha hphase hsender hrecipient
  rcases update_eq_some.mp hsender with ⟨hs, -⟩ | ⟨-, hsender⟩
  · exact .inl (.inl hs)
  · rcases update_eq_some.mp hrecipient with ⟨hr, -⟩ | ⟨-, hrecipient⟩
    · exact .inr (.inl hr)
    · exact (h a ca ha hphase hsender hrecipient).imp .inr .inr

/-- The attempt is started. -/
def begin (v : View G) (a : ℕ) (ca : ConnectionAttempt G) (time : ℕ) : View G :=
  { v with
    ready := Function.update (Function.update v.ready ca.sender (some false))
      ca.recipient (some false)
    attempt := Function.update v.attempt a <| some
      { ca with attemptPhase := .gettingRecentPorts, startTime := time }
    sent := v.sent ++ [(ca.sender, .getMostRecentPort ca.sessionId),
      (ca.recipient, .getMostRecentPort ca.sessionId)] }

theorem begin_ends (ha : v.attempt a = some ca) (time : ℕ) :
    (v.begin a ca time).ends = v.ends := by
  funext b
  by_cases hb : b = a
  · rw [hb, ends_eq ha, ends_eq (Function.update_self ..)]
  · simp only [ends, begin, Function.update_of_ne hb]

theorem begin_ready_of_ne (hs : p ≠ ca.sender)
    (hr : p ≠ ca.recipient) (time : ℕ) :
    (v.begin a ca time).ready p = v.ready p := by
  simp only [begin, Function.update_of_ne hr, Function.update_of_ne hs]

theorem begin_ready_eq (hp : p = ca.sender ∨ p = ca.recipient)
    (time : ℕ) : (v.begin a ca time).ready p = some false := by
  by_cases hr : p = ca.recipient
  · simp only [begin, hr, Function.update_self]
  · obtain rfl := hp.resolve_right hr
    simp only [begin, Function.update_of_ne hr, Function.update_self]

theorem Sound.begin (h : v.Sound) (ha : v.attempt a = some ca) (time : ℕ) :
    (v.begin a ca time).Sound where
  incidence := begin_ends ha time ▸ h.incidence
  users_nodup := h.users_nodup
  user_exists := h.user_exists
  user_lt := h.user_lt
  attempt_lt b cb hb := by
    rcases update_eq_some.mp hb with ⟨rfl, -⟩ | ⟨-, hb⟩
    · exact h.attempt_lt b ca ha
    · exact h.attempt_lt b cb hb
  notReady p hp := by
    by_cases hend : p = ca.sender ∨ p = ca.recipient
    · exact .inl ⟨a, _, Function.update_self .., hend.imp Eq.symm Eq.symm, rfl⟩
    · obtain ⟨hs, hr⟩ := not_or.mp hend
      rw [begin_ready_of_ne hs hr] at hp
      rcases h.notReady p hp with ⟨b, cb, hb, hbp, hphase⟩ | hnotice
      · refine .inl ⟨b, cb, ?_, hbp, hphase⟩
        have hne : b ≠ a := fun heq => by
          obtain rfl : ca = cb := Option.some.inj (ha.symm.trans (heq ▸ hb))
          exact hend (hbp.imp Eq.symm Eq.symm)
        exact (Function.update_of_ne hne ..).trans hb
      · refine .inr ((lastNotice_append v _).trans ?_)
        simpa [notice, Ne.symm hs, Ne.symm hr] using hnotice

theorem Waiting.begin (h : v.Waiting fun q => q = p ∨ except q)
    (hp : ca.sender = p ∨ ca.recipient = p) (time : ℕ) :
    (v.begin a ca time).Waiting except := by
  intro b cb hb hphase hsender hrecipient
  have hready : ∀ q, (v.begin a ca time).ready q = some true →
      q ≠ p ∧ v.ready q = some true := by
    intro q hq
    have hend : ¬ (q = ca.sender ∨ q = ca.recipient) := fun hend => by
      rw [begin_ready_eq hend] at hq
      exact nomatch hq
    obtain ⟨hs, hr⟩ := not_or.mp hend
    refine ⟨fun hqp => hend ?_, (begin_ready_of_ne hs hr time) ▸ hq⟩
    exact hp.imp (fun h => hqp.trans h.symm) fun h => hqp.trans h.symm
  rcases update_eq_some.mp hb with ⟨-, ⟨⟩⟩ | ⟨-, hb⟩
  · exact nomatch hphase
  exact (h b cb hb hphase (hready _ hsender).2 (hready _ hrecipient).2).imp
    (·.resolve_left (hready _ hsender).1) (·.resolve_left (hready _ hrecipient).1)

/-- The attempt goes from the lists of its users. -/
def remove (v : View G) (a : ℕ) (p q : UserPointer G) (l k : List ℕ) : View G :=
  { v with
    attempt := Function.update v.attempt a none
    edges := Function.update (Function.update v.edges p (some (l.erase a))) q (some (k.erase a)) }

theorem remove_ends (v : View G) (a : ℕ) (p q : UserPointer G) (l k : List ℕ) :
    (v.remove a p q l k).ends = Function.update v.ends a none := by
  funext b
  by_cases hb : b = a
  · simp only [hb, ends, remove, Function.update_self, Option.map_none]
  · simp only [ends, remove, Function.update_of_ne hb]

theorem remove_attempt {l k : List ℕ} {b : ℕ} {cb : ConnectionAttempt G}
    (hb : (v.remove a p q l k).attempt b = some cb) : v.attempt b = some cb := by
  rcases update_eq_some.mp hb with ⟨-, ⟨⟩⟩ | ⟨-, hb⟩
  exact hb

theorem edges_of_update {l k l' k' : List ℕ} {r : UserPointer G} {m : List ℕ}
    (hp : v.edges p = some l) (hq : v.edges q = some k)
    (hr : Function.update (Function.update v.edges p (some l')) q (some k') r = some m) :
    ∃ m', v.edges r = some m' := by
  rcases update_eq_some.mp hr with ⟨rfl, -⟩ | ⟨-, hr⟩
  · exact ⟨k, hq⟩
  · rcases update_eq_some.mp hr with ⟨rfl, -⟩ | ⟨-, hr⟩
    · exact ⟨l, hp⟩
    · exact ⟨m, hr⟩

/-- An attempt in progress goes when its users are ready or were told to connect. -/
theorem Sound.remove (h : v.Sound) (ha : v.attempt a = some ca)
    (hends : (p = ca.sender ∧ q = ca.recipient) ∨
      (p = ca.recipient ∧ q = ca.sender))
    {l k : List ℕ} (hp : v.edges p = some l) (hq : v.edges q = some k)
    (hnotice : ca.attemptPhase = .gettingRecentPorts →
      ∀ r, r = ca.sender ∨ r = ca.recipient →
        v.ready r = some false → v.lastNotice r = some true) :
    (v.remove a p q l k).Sound where
  incidence := by
    rw [remove_ends]
    rcases hends with ⟨rfl, rfl⟩ | ⟨rfl, rfl⟩
    · exact h.incidence.remove_edge (ends_eq ha) hp hq
    · have hremoved := h.incidence.remove_edge (ends_eq ha) hq hp
      rwa [Function.update_comm (h.ne ha)] at hremoved
  users_nodup := h.users_nodup
  user_exists r hr := exists_update (exists_update (h.user_exists r hr))
  user_lt r m hr := by
    obtain ⟨m', hm'⟩ := edges_of_update hp hq hr
    exact h.user_lt r m' hm'
  attempt_lt b cb hb := h.attempt_lt b cb (remove_attempt hb)
  notReady r hr := by
    rcases h.notReady r hr with ⟨b, cb, hb, hbr, hphase⟩ | hlast
    · by_cases heq : b = a
      · obtain rfl : ca = cb := Option.some.inj (ha.symm.trans (heq ▸ hb))
        exact .inr (hnotice hphase r (hbr.imp Eq.symm Eq.symm) hr)
      · exact .inl ⟨b, cb, (Function.update_of_ne heq ..).trans hb, hbr, hphase⟩
    · exact .inr hlast

theorem Waiting.remove (h : v.Waiting except) {l k : List ℕ} :
    (v.remove a p q l k).Waiting except :=
  fun b cb hb hphase hsender hrecipient =>
    h b cb (remove_attempt hb) hphase hsender hrecipient

/-- A new attempt is at the end of the lists of its users. -/
def add (v : View G) (ca : ConnectionAttempt G) (l k : List ℕ) : View G :=
  { v with
    attempt := Function.update v.attempt v.nextAttempt (some ca)
    edges := Function.update (Function.update v.edges ca.sender
      (some (l ++ [v.nextAttempt]))) ca.recipient (some (k ++ [v.nextAttempt]))
    nextAttempt := v.nextAttempt + 1 }

theorem add_ends (v : View G) (ca : ConnectionAttempt G) (l k : List ℕ) :
    (v.add ca l k).ends = Function.update v.ends v.nextAttempt
      (some (ca.sender, ca.recipient)) := by
  funext b
  by_cases hb : b = v.nextAttempt
  · simp only [hb, ends, add, Function.update_self, Option.map_some]
  · simp only [ends, add, Function.update_of_ne hb]

theorem Sound.attempt_next (h : v.Sound) : v.attempt v.nextAttempt = none :=
  Option.eq_none_iff_forall_ne_some.mpr fun ca hca =>
    (h.attempt_lt _ ca hca).ne rfl

theorem Sound.add (h : v.Sound) {l k : List ℕ}
    (hne : ca.sender ≠ ca.recipient)
    (hl : v.edges ca.sender = some l)
    (hk : v.edges ca.recipient = some k)
    (hfree : ∀ b ∈ k, ∀ cb, v.attempt b = some cb →
      cb.sender ≠ ca.sender ∧ cb.recipient ≠ ca.sender) :
    (v.add ca l k).Sound where
  incidence := by
    rw [add_ends]
    refine h.incidence.add_edge ?_ hne hl hk fun b hb hend => ?_
    · rw [ends, h.attempt_next]
      rfl
    · obtain ⟨ends, hends, hsender⟩ := hend
      obtain ⟨cb, hcb, rfl⟩ := Option.map_eq_some_iff.mp hends
      exact hsender.elim (hfree b hb cb hcb).1 (hfree b hb cb hcb).2
  users_nodup := h.users_nodup
  user_exists r hr := exists_update (exists_update (h.user_exists r hr))
  user_lt r m hr := by
    obtain ⟨m', hm'⟩ := edges_of_update hl hk hr
    exact h.user_lt r m' hm'
  attempt_lt b cb hb := by
    rcases update_eq_some.mp hb with ⟨rfl, -⟩ | ⟨-, hb⟩
    · exact Nat.lt_succ_self _
    · exact Nat.lt_succ_of_lt (h.attempt_lt b cb hb)
  notReady r hr := by
    refine (h.notReady r hr).imp_left fun hprogress => ?_
    obtain ⟨b, cb, hb, hbr, hphase⟩ := hprogress
    have hne : b ≠ v.nextAttempt := (h.attempt_lt b cb hb).ne
    exact ⟨b, cb, (Function.update_of_ne hne ..).trans hb, hbr, hphase⟩

theorem Waiting.add (h : v.Waiting except) {l k : List ℕ} :
    (v.add ca l k).Waiting
      fun q => q = ca.sender ∨ except q := by
  intro b cb hb hphase hsender hrecipient
  rcases update_eq_some.mp hb with ⟨-, ⟨⟩⟩ | ⟨-, hb⟩
  · exact .inl (.inl rfl)
  · exact (h b cb hb hphase hsender hrecipient).imp .inr .inr

/-- A new user, which may have stayed outside the list. -/
def addUser (v : View G) (p : UserPointer G) (users : List (UserPointer G)) : View G :=
  { v with
    users := users
    edges := Function.update v.edges p (some [])
    ready := Function.update v.ready p (some true)
    nextUser := v.nextUser + 1 }

theorem Sound.edges_next (h : v.Sound) (hp : p.address = v.nextUser) : v.edges p = none :=
  Option.eq_none_iff_forall_ne_some.mpr fun l hl => (h.user_lt p l hl).ne hp

theorem Sound.addUser (h : v.Sound) (hp : p.address = v.nextUser) {users : List (UserPointer G)}
    (hnodup : users.Nodup) (hmem : ∀ q ∈ users, q = p ∨ q ∈ v.users) :
    (v.addUser p users).Sound where
  incidence := h.incidence.add_vertex (h.edges_next hp)
  users_nodup := hnodup
  user_exists q hq := by
    by_cases heq : q = p
    · exact ⟨[], heq ▸ Function.update_self ..⟩
    · obtain ⟨l, hl⟩ := h.user_exists q ((hmem q hq).resolve_left heq)
      exact ⟨l, (Function.update_of_ne heq ..).trans hl⟩
  user_lt q l hq := by
    rcases update_eq_some.mp hq with ⟨rfl, -⟩ | ⟨-, hq⟩
    · exact hp.trans_lt (Nat.lt_succ_self _)
    · exact Nat.lt_succ_of_lt (h.user_lt q l hq)
  attempt_lt := h.attempt_lt
  notReady := h.set_ready.notReady

theorem Waiting.addUser (h : v.Waiting except) (hs : v.Sound) (hp : p.address = v.nextUser)
    {users : List (UserPointer G)} : (v.addUser p users).Waiting except := by
  intro a ca ha hphase hsender hrecipient
  have hend : ∀ r, ca.sender = r ∨ ca.recipient = r → r ≠ p := by
    rintro r hr rfl
    obtain ⟨l, hl, -⟩ := hs.edges_of_end ha hr
    rw [hs.edges_next hp] at hl
    exact nomatch hl
  simp only [View.addUser, Function.update_of_ne (hend _ (.inl rfl))] at hsender
  simp only [View.addUser, Function.update_of_ne (hend _ (.inr rfl))] at hrecipient
  exact h a ca ha hphase hsender hrecipient

/-- The user while its connection is closed: these are the attempts still to be given back, and
nobody waits for it. -/
def closing (v : View G) (p : UserPointer G) (attempts : List ℕ) : View G :=
  { v with
    edges := Function.update v.edges p (some attempts)
    ready := Function.update v.ready p (some true) }

/-- The user is gone. -/
def removeUser (v : View G) (p : UserPointer G) (users : List (UserPointer G)) : View G :=
  { v with
    users := users
    edges := Function.update v.edges p none
    ready := Function.update v.ready p none }

theorem Sound.removeUser (h : (v.closing p []).Sound) {users : List (UserPointer G)}
    (hnodup : users.Nodup) (hmem : ∀ q ∈ users, q ≠ p ∧ q ∈ v.users) :
    (v.removeUser p users).Sound where
  incidence := by
    have hremoved := h.incidence.remove_vertex (v := p) (Function.update_self ..)
    simp only [closing, Function.update_idem] at hremoved
    exact hremoved
  users_nodup := hnodup
  user_exists q hq := by
    obtain ⟨l, hl⟩ := h.user_exists q (hmem q hq).2
    refine ⟨l, ?_⟩
    simp only [closing, Function.update_of_ne (hmem q hq).1] at hl
    exact (Function.update_of_ne (hmem q hq).1 ..).trans hl
  user_lt q l hq := by
    rcases update_eq_some.mp hq with ⟨-, ⟨⟩⟩ | ⟨heq, hq⟩
    exact h.user_lt q l ((Function.update_of_ne heq ..).trans hq)
  attempt_lt := h.attempt_lt
  notReady q hq := by
    rcases update_eq_some.mp hq with ⟨-, ⟨⟩⟩ | ⟨heq, hq⟩
    exact h.notReady q ((Function.update_of_ne heq ..).trans hq)

theorem Waiting.removeUser (h : (v.closing p []).Waiting fun q => q = p ∨ except q)
    {users : List (UserPointer G)} :
    (v.removeUser p users).Waiting except := by
  intro a ca ha hphase hsender hrecipient
  rcases update_eq_some.mp hsender with ⟨-, ⟨⟩⟩ | ⟨hs', hsender⟩
  rcases update_eq_some.mp hrecipient with ⟨-, ⟨⟩⟩ | ⟨hr', hrecipient⟩
  exact (h a ca ha hphase ((Function.update_of_ne hs' ..).trans hsender)
    ((Function.update_of_ne hr' ..).trans hrecipient)).imp (·.resolve_left hs')
      (·.resolve_left hr')

end View

end NatPunchthroughServer

end SLikeNet
