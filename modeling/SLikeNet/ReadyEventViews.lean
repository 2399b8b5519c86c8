import SLikeNet.ReadyEventCalls
import SLikeNet.Library.GuardedRun

/-! What a system has received of the other is its status, or will be when what is on the way has
arrived. -/

namespace SLikeNet

namespace ReadyEvent

open ReadyEventNode

namespace Systems

variable {s : Systems}

theorem peer_ne (b : Bool) : (!b) ≠ b := by cases b <;> decide

theorem act_event_self (b : Bool) (call : Event → Event × Sent) :
    (s.act b call).event b = (call (s.event b)).1 := Function.update_self _ _ _

theorem act_event_peer (b : Bool) (call : Event → Event × Sent) :
    (s.act b call).event (!b) = s.event (!b) := Function.update_of_ne (peer_ne b) _ _

theorem act_inFlight_self (b : Bool) (call : Event → Event × Sent) :
    (s.act b call).inFlight b = s.inFlight b ++ toPeer (!b) (call (s.event b)).2 :=
  Function.update_self _ _ _

theorem act_inFlight_peer (b : Bool) (call : Event → Event × Sent) :
    (s.act b call).inFlight (!b) = s.inFlight (!b) :=
  Function.update_of_ne (peer_ne b) _ _

/-- What the system `p` will have received of `b` when all that is on the way has arrived. -/
def view (s : Systems) (b p : Bool) : Option Status :=
  (lastUpdate (s.inFlight b)).or ((record b (s.event p)).map (·.lastReceivedStatus))

/-- That is the status, or `p` has asked for it. -/
def Viewed (s : Systems) (b p : Bool) (status : Status) : Prop :=
  s.view b p = some status ∨ (.query ∈ s.inFlight p ∧ status ≠ .unset)

/-- What `b` has told `p`, where it has it in its wait list. -/
structure Agreeing (s : Systems) (b p : Bool) : Prop where
  settled : Settled (s.event b)
  lastSent : ∀ ren, s.event b = some ren → (record p (s.event b)).isSome →
    ∀ status, lastUpdate (s.inFlight b) = some status → status = ren.eventStatus
  viewed : ∀ ren, s.event b = some ren → (record p (s.event b)).isSome →
    (record b (s.event p)).isSome → s.Viewed b p ren.eventStatus

theorem agreeing_act_self {b : Bool} {call : Event → Event × Sent}
    (htells : Tells (!b) (s.event b) (call (s.event b)).1 (toPeer (!b) (call (s.event b)).2))
    (hlast : ∀ ren, s.event b = some ren → (record (!b) (s.event b)).isSome →
      ∀ status, lastUpdate (s.inFlight b) = some status → status = ren.eventStatus)
    (hviewed : lastUpdate (toPeer (!b) (call (s.event b)).2) = none →
      ∀ ren, s.event b = some ren → (record (!b) (s.event b)).isSome →
        (record b (s.event (!b))).isSome → s.Viewed b (!b) ren.eventStatus)
    (hfresh : ∀ ren', (call (s.event b)).1 = some ren' → record (!b) (s.event b) = none →
      (record (!b) (call (s.event b)).1).isSome → ren'.eventStatus = .unset →
        ∀ status, s.view b (!b) = some status → status = .unset) :
    (s.act b call).Agreeing b (!b) := by
  constructor
  · rw [act_event_self]
    exact htells.settled
  · rw [act_event_self, act_inFlight_self]
    intro ren' hren' hsome status hstatus
    rw [lastUpdate_append] at hstatus
    rcases htells.sender ren' hren' hsome with hsent | ⟨hnone, hrecord, ren, hren, hsame⟩ |
        ⟨hnone, hrecord, hunset⟩
    · rw [hsent] at hstatus
      exact (Option.some.inj hstatus).symm
    · rw [hnone] at hstatus
      rw [← hsame]
      exact hlast ren hren hrecord status hstatus
    · rw [hnone] at hstatus
      have hlastUpdate : lastUpdate (s.inFlight b) = some status := hstatus
      rw [hunset]
      apply hfresh ren' hren' hrecord hsome hunset status
      rw [view, hlastUpdate]
      rfl
  · intro ren' hren' hsome hpeer
    rw [Viewed, view, act_event_peer, act_inFlight_self, act_inFlight_peer, lastUpdate_append]
    rw [act_event_self] at hren' hsome
    rw [act_event_peer] at hpeer
    rcases htells.sender ren' hren' hsome with hsent | ⟨hnone, hrecord, ren, hren, hsame⟩ |
        ⟨hnone, hrecord, hunset⟩
    · left
      rw [hsent]
      rfl
    · rw [hnone, ← hsame]
      exact hviewed hnone ren hren hrecord hpeer
    · left
      rw [hnone, hunset]
      obtain ⟨rs, hrs⟩ := Option.isSome_iff_exists.mp hpeer
      have hview : ∃ status, s.view b (!b) = some status := by
        rw [view, hrs]
        cases lastUpdate (s.inFlight b) with
        | none => exact ⟨_, rfl⟩
        | some status => exact ⟨status, rfl⟩
      obtain ⟨status, hstatus⟩ := hview
      have hstatus' := hfresh ren' hren' hrecord hsome hunset status hstatus
      rw [hstatus'] at hstatus
      exact hstatus

theorem Agreeing.act_peer {b : Bool} {call : Event → Event × Sent} (h : s.Agreeing (!b) b)
    (htells : Tells (!b) (s.event b) (call (s.event b)).1
      (toPeer (!b) (call (s.event b)).2)) :
    (s.act b call).Agreeing (!b) b := by
  constructor
  · rw [act_event_peer]
    exact h.settled
  · rw [act_event_peer, act_inFlight_peer]
    exact h.lastSent
  · intro ren hren hsome hpeer
    rw [Viewed, view, act_event_self, act_inFlight_peer, act_inFlight_self]
    rw [act_event_peer] at hren hsome
    rw [act_event_self] at hpeer
    obtain ⟨rs', hrs'⟩ := Option.isSome_iff_exists.mp hpeer
    rcases htells.receiver rs' hrs' with ⟨rs, hrs, hsame⟩ | ⟨hnone, hunset, hquery⟩
    · rcases h.viewed ren hren hsome (Option.isSome_iff_exists.mpr ⟨rs, hrs⟩) with hview |
          ⟨hasked, hne⟩
      · left
        rw [view, hrs] at hview
        rw [hrs', ← hview]
        exact congrArg _ (congrArg some hsame.symm)
      · exact .inr ⟨List.mem_append_left _ hasked, hne⟩
    · by_cases hdefault : ren.eventStatus = .unset
      · left
        rw [hrs', hdefault]
        cases hlast : lastUpdate (s.inFlight (!b)) with
        | none => exact congrArg some hunset
        | some status =>
          rw [h.lastSent ren hren hsome status hlast, hdefault]
          rfl
      · exact .inr ⟨List.mem_append_right _ hquery, hdefault⟩

theorem agreeing_act_known {b : Bool} {call : Event → Event × Sent} (h : s.Agreeing b (!b))
    (htells : TellsKnown (!b) (s.event b) (call (s.event b)).1
      (toPeer (!b) (call (s.event b)).2)) : (s.act b call).Agreeing b (!b) := by
  apply agreeing_act_self htells.toTells h.lastSent fun _ => h.viewed
  intro ren' _ hnone hsome
  have hold := htells.known hsome
  rw [hnone] at hold
  cases hold

/-- What both systems have told each other. -/
def Agrees (s : Systems) : Prop := ∀ b, s.Agreeing b (!b)

theorem Agrees.peer (h : s.Agrees) (b : Bool) : s.Agreeing (!b) b := by
  have hpeer := h (!b)
  rwa [Bool.not_not] at hpeer

theorem agrees_of {s : Systems} {b : Bool} (h : s.Agreeing b (!b)) (h' : s.Agreeing (!b) b) :
    s.Agrees := by
  intro c
  by_cases heq : c = b
  · rw [heq]
    exact h
  · obtain rfl : c = !b := by
      cases c <;> cases b <;> simp_all
    rwa [Bool.not_not]

theorem Agrees.act_known {b : Bool} {call : Event → Event × Sent} (h : s.Agrees)
    (htells : TellsKnown (!b) (s.event b) (call (s.event b)).1
      (toPeer (!b) (call (s.event b)).2)) : (s.act b call).Agrees :=
  agrees_of (agreeing_act_known (h b) htells) ((h.peer b).act_peer htells.toTells)

theorem agrees_start : start.Agrees := by
  intro b
  constructor
  · intro ren h
    cases h
  · intro ren h
    cases h
  · intro ren h
    cases h

/-- The event of `b` has taken a status, and what is on the way to `b` is `rest`. -/
def taken (s : Systems) (b : Bool) (event : Event) (rest : List Message) : Systems :=
  ⟨Function.update s.event b event, Function.update s.inFlight (!b) rest⟩

theorem taken_event_self (b : Bool) (event : Event) (rest : List Message) :
    (s.taken b event rest).event b = event := Function.update_self _ _ _

theorem taken_event_peer (b : Bool) (event : Event) (rest : List Message) :
    (s.taken b event rest).event (!b) = s.event (!b) := Function.update_of_ne (peer_ne b) _ _

theorem taken_inFlight_self (b : Bool) (event : Event) (rest : List Message) :
    (s.taken b event rest).inFlight b = s.inFlight b :=
  Function.update_of_ne (peer_ne b).symm _ _

theorem taken_inFlight_peer (b : Bool) (event : Event) (rest : List Message) :
    (s.taken b event rest).inFlight (!b) = rest := Function.update_self _ _ _

theorem act_taken (b : Bool) (call : Event → Event × Sent) (event : Event)
    (rest : List Message) :
    (s.taken b event rest).act b (fun _ => call (s.event b)) =
      act b call ⟨s.event, Function.update s.inFlight (!b) rest⟩ := by
  rw [act, act, taken]
  dsimp only
  rw [Function.update_idem]

theorem Agrees.taken {b : Bool} {event : Event} {rest : List Message} {sender : ℕ}
    {status : Status} (h : s.Agrees) (hreceives : Receives (!b) sender status (s.event b) event)
    (hlast : ∀ status', lastUpdate rest = some status' →
      lastUpdate (s.inFlight (!b)) = some status')
    (hquery : .query ∈ s.inFlight (!b) → .query ∈ rest)
    (hview : ∀ rs : RemoteSystem, (lastUpdate rest).or
      (some (if sender = guidOf (!b) then status else rs.lastReceivedStatus)) =
        (lastUpdate (s.inFlight (!b))).or (some rs.lastReceivedStatus)) :
    (s.taken b event rest).Agrees := by
  have hsome : (record (!b) event).isSome → (record (!b) (s.event b)).isSome := by
    intro hin
    obtain ⟨rs', hrs'⟩ := Option.isSome_iff_exists.mp hin
    obtain ⟨rs, hrs, -⟩ := hreceives.record rs' hrs'
    exact Option.isSome_iff_exists.mpr ⟨rs, hrs⟩
  refine @agrees_of (s.taken b event rest) b ⟨?_, ?_, ?_⟩ ⟨?_, ?_, ?_⟩
  · rw [taken_event_self]
    exact hreceives.settled
  · rw [taken_event_self, taken_inFlight_self]
    intro ren' hren' hin
    obtain ⟨ren, hren, hsame⟩ := hreceives.eventStatus ren' hren'
    rw [← hsame]
    exact (h b).lastSent ren hren (hsome hin)
  · rw [taken_event_self, taken_event_peer]
    intro ren' hren' hin hpeer
    obtain ⟨ren, hren, hsame⟩ := hreceives.eventStatus ren' hren'
    rw [← hsame, Viewed, view, taken_event_peer, taken_inFlight_self, taken_inFlight_peer]
    rcases (h b).viewed ren hren (hsome hin) hpeer with hviewed | ⟨hasked, hne⟩
    · exact .inl hviewed
    · exact .inr ⟨hquery hasked, hne⟩
  · rw [taken_event_peer]
    exact (h.peer b).settled
  · rw [taken_event_peer, taken_inFlight_peer]
    exact fun ren hren hin status' hstatus =>
      (h.peer b).lastSent ren hren hin status' (hlast status' hstatus)
  · rw [taken_event_peer, taken_event_self]
    intro ren hren hin hpeer
    obtain ⟨rs', hrs'⟩ := Option.isSome_iff_exists.mp hpeer
    obtain ⟨rs, hrs, hreceived⟩ := hreceives.record rs' hrs'
    rw [Viewed, view, taken_event_self, taken_inFlight_self, taken_inFlight_peer, hrs',
      Option.map_some, hreceived, hview rs]
    rcases (h.peer b).viewed ren hren hin (hsome hpeer) with hviewed | hasked
    · left
      rw [view, hrs] at hviewed
      exact hviewed
    · exact .inr hasked

theorem deliver_eq {b : Bool} {m : Message} {rest : List Message}
    (h : s.inFlight (!b) = m :: rest) :
    s.deliver b = act b (onReceive (guidOf (!b)) m)
      ⟨s.event, Function.update s.inFlight (!b) rest⟩ := by
  rw [deliver, h]

theorem Agrees.deliver_update {b : Bool} {status : Status} {rest : List Message} (h : s.Agrees)
    (hflight : s.inFlight (!b) = .update status :: rest) : (s.deliver b).Agrees := by
  obtain ⟨event, hreceives, htells⟩ :=
    (h b).settled.tells_packetUpdate (!b) (guidOf (!b)) status
  have htaken : (s.taken b event rest).Agrees := by
    apply h.taken hreceives
    · intro status' hstatus
      rw [hflight, lastUpdate_cons_update, hstatus]
      rfl
    · intro hquery
      rw [hflight] at hquery
      rcases List.mem_cons.mp hquery with hquery | hquery
      · cases hquery
      · exact hquery
    · intro rs
      rw [if_pos rfl, hflight, lastUpdate_cons_update, Option.or_assoc]
      rfl
  rw [deliver_eq hflight, ← act_taken b _ event rest]
  apply htaken.act_known
  rw [taken_event_self]
  exact htells

theorem Agrees.deliver_query {b : Bool} {rest : List Message} (h : s.Agrees)
    (hflight : s.inFlight (!b) = .query :: rest) : (s.deliver b).Agrees := by
  have htells := (h b).settled.tells_onReadyEventQuery (!b) (guidOf (!b))
  have hself : Systems.event ⟨s.event, Function.update s.inFlight (!b) rest⟩ b = s.event b := rfl
  have hflight' : Systems.inFlight ⟨s.event, Function.update s.inFlight (!b) rest⟩ b =
      s.inFlight b := Function.update_of_ne (peer_ne b).symm _ _
  have hflight'' : Systems.inFlight ⟨s.event, Function.update s.inFlight (!b) rest⟩ (!b) =
      rest := Function.update_self _ _ _
  rw [deliver_eq hflight]
  refine @agrees_of _ b ?_ ?_
  · refine agreeing_act_self (s := ⟨s.event, Function.update s.inFlight (!b) rest⟩)
      htells.toTells ?_ ?_ ?_
    · rw [hself, hflight']
      exact (h b).lastSent
    · -- the other system is told, unless the status is the default
      intro hnone ren hren hsome hpeer
      rw [Viewed, view, hflight', hflight'']
      left
      have hren' : s.event b = some ren := hren
      have hunset : ren.eventStatus = .unset := by
        by_contra hne
        have hfind : (ren.find (guidOf (!b))).isSome := by
          rw [hself, hren'] at hsome
          exact hsome
        have hsent := forceReadyUpdate_sent hfind hne
        rw [hself, hren'] at hnone
        exact absurd (hnone.symm.trans hsent) (by simp)
      rcases (h b).viewed ren hren' hsome hpeer with hviewed | ⟨-, hne⟩
      · exact hviewed
      · exact (hne hunset).elim
    · intro ren' _ hnone hsome
      have hold := htells.known hsome
      rw [hself] at hnone
      rw [hnone] at hold
      cases hold
  · refine Agreeing.act_peer ⟨(h.peer b).settled, ?_, ?_⟩ htells.toTells
    · rw [hflight'']
      intro ren hren hsome status hstatus
      apply (h.peer b).lastSent ren hren hsome status
      rw [hflight]
      exact hstatus
    · intro ren hren hsome hpeer
      rw [Viewed, view, hflight', hflight'']
      have hviewed := (h.peer b).viewed ren hren hsome hpeer
      rw [Viewed, view, hflight] at hviewed
      exact hviewed

/-! ### Runs -/

/-- A message that is not from the other system is from a third one. -/
def Possible (b : Bool) : Operation → Prop
  | .receiveOther sender _ => sender ≠ guidOf (!b)
  | _ => True

/-- Where a system whose status is the default adds the other one, the other one does not hold
another status of it, and none is on the way. -/
def Handled (s : Systems) (b : Bool) : Operation → Prop
  | .addToWaitList guids =>
    guidOf (!b) ∈ guids → record (!b) (s.event b) = none →
      (nodeOf (s.event b)).eventStatus = .unset →
        ∀ status, s.view b (!b) = some status → status = .unset
  | _ => True

/-- An operation of the system `b`. -/
abbrev Step := Bool × Operation

def step (s : Systems) (op : Step) : Systems := s.perform op.1 op.2

def Reachable (allowed : Systems → Bool → Operation → Prop) : Systems → Prop :=
  GuardedRun.Reachable step (fun s op => Possible op.1 op.2 ∧ allowed s op.1 op.2) start

theorem Agrees.addToWaitList {b : Bool} {guids : List ℕ} (h : s.Agrees)
    (hhandled : s.Handled b (.addToWaitList guids)) :
    (s.act b (ReadyEvent.addToWaitList guids)).Agrees := by
  obtain ⟨htells, hstatus⟩ := (h b).settled.tells_addToWaitList (!b) guids
  refine agrees_of ?_ ((h.peer b).act_peer htells)
  apply agreeing_act_self htells (h b).lastSent fun _ => (h b).viewed
  intro ren' hren' hnone hsome hunset
  have hmem : guidOf (!b) ∈ guids := by
    by_contra hnot
    rw [record_addToWaitList hnot, hnone] at hsome
    cases hsome
  exact hhandled hmem hnone ((hstatus ren' hren').mp hunset)

theorem Agrees.perform {b : Bool} {op : Operation} (h : s.Agrees) (hpossible : Possible b op)
    (hhandled : s.Handled b op) : (s.perform b op).Agrees := by
  cases op with
  | setEvent isReady => exact h.act_known ((h b).settled.tells_setEvent (!b) isReady)
  | deleteEvent => exact h.act_known (tells_none (!b) _ _)
  | addToWaitList guids => exact h.addToWaitList hhandled
  | removeFromWaitList guid => exact h.act_known ((h b).settled.tells_removeFromWaitList (!b) guid)
  | receiveOther sender message =>
    cases message with
    | query => exact h.act_known ((h b).settled.tells_onReadyEventQuery (!b) sender)
    | update status =>
      obtain ⟨event, hreceives, htells⟩ := (h b).settled.tells_packetUpdate (!b) sender status
      have hother : ¬sender = guidOf (!b) := hpossible
      have htaken : (s.taken b event (s.inFlight (!b))).Agrees := by
        apply h.taken hreceives
        · exact fun status' hstatus => hstatus
        · exact fun hquery => hquery
        · intro rs
          rw [if_neg hother]
      have hact := @act_taken s b (onReadyEventPacketUpdate sender status) event (s.inFlight (!b))
      rw [Function.update_eq_self] at hact
      change (act b (onReadyEventPacketUpdate sender status) s).Agrees
      refine hact ▸ ?_
      apply htaken.act_known
      rw [taken_event_self]
      exact htells
  | deliver =>
    change (s.deliver b).Agrees
    cases hflight : s.inFlight (!b) with
    | nil =>
      rw [deliver, hflight]
      exact h
    | cons m rest =>
      cases m with
      | query => exact h.deliver_query hflight
      | update status => exact h.deliver_update hflight

theorem Reachable.agrees (h : Reachable Handled s) : s.Agrees :=
  GuardedRun.Reachable.invariant h agrees_start fun _ _ hs hop => hs.perform hop.1 hop.2

/-- Each system that is in the wait list of the other has received its status. -/
def ViewsAgree (s : Systems) : Prop :=
  ∀ b ren rs rs', s.event b = some ren → ren.find (guidOf (!b)) = some rs →
    record b (s.event (!b)) = some rs' → rs'.lastReceivedStatus = ren.eventStatus

theorem quiet_views_agree (h : Reachable Handled s) (hquiet : ∀ b, s.inFlight b = []) :
    s.ViewsAgree := by
  intro b ren rs rs' hren hrs hrs'
  have hsome : (record (!b) (s.event b)).isSome := by
    rw [hren]
    exact Option.isSome_iff_exists.mpr ⟨rs, hrs⟩
  rcases (h.agrees b).viewed ren hren hsome (Option.isSome_iff_exists.mpr ⟨rs', hrs'⟩) with hview |
      ⟨hasked, -⟩
  · rw [view, hquiet b, hrs'] at hview
    exact Option.some.inj hview
  · rw [hquiet] at hasked
    cases hasked

def run (operations : List Step) (s : Systems) : Systems := operations.foldl step s

/-- Two systems wait for each other, and one is ready. -/
def readyOperations : List Step :=
  [(false, .addToWaitList [1]), (true, .addToWaitList [0]), (false, .setEvent true),
    (true, .deliver), (true, .deliver), (false, .deliver), (true, .deliver)]

/-- The one that is ready removes the other, is not ready any more and adds the other again. -/
def readdOperations : List Step :=
  [(false, .removeFromWaitList (some 1)), (false, .setEvent false), (false, .addToWaitList [1]),
    (true, .deliver)]

theorem reachable_ready : Reachable Handled (start.run readyOperations) := by
  refine GuardedRun.Reachable.run .start (.intro ⟨trivial, ?_⟩ (.intro ⟨trivial, ?_⟩
    (.intro ⟨trivial, trivial⟩ (.intro ⟨trivial, trivial⟩ (.intro ⟨trivial, trivial⟩
      (.intro ⟨trivial, trivial⟩ (.intro ⟨trivial, trivial⟩ trivial)))))))
  · intro _ _ _ status hstatus
    cases hstatus
  · intro _ _ _ status hstatus
    exact (Option.some.inj hstatus).symm

theorem quiet_views_agree_ready :
    ((start.run readyOperations).event false).isSome ∧ (start.run readyOperations).ViewsAgree := by
  refine ⟨rfl, quiet_views_agree reachable_ready ?_⟩
  intro b
  cases b <;> rfl

/-- The other system has received that the one is ready, and is not told that it is not. -/
theorem readd_disagrees :
    Reachable (fun _ _ _ => True) ((start.run readyOperations).run readdOperations) ∧
      (∀ b, ((start.run readyOperations).run readdOperations).inFlight b = []) ∧
      ¬((start.run readyOperations).run readdOperations).ViewsAgree := by
  refine ⟨?_, ?_, ?_⟩
  · have hready : Reachable (fun _ _ _ => True) (start.run readyOperations) :=
      GuardedRun.Reachable.run .start (.intro ⟨trivial, trivial⟩ (.intro ⟨trivial, trivial⟩
        (.intro ⟨trivial, trivial⟩ (.intro ⟨trivial, trivial⟩ (.intro ⟨trivial, trivial⟩
          (.intro ⟨trivial, trivial⟩ (.intro ⟨trivial, trivial⟩ trivial)))))))
    exact GuardedRun.Reachable.run hready (.intro ⟨trivial, trivial⟩ (.intro ⟨trivial, trivial⟩
      (.intro ⟨trivial, trivial⟩ (.intro ⟨trivial, trivial⟩ trivial))))
  · intro b
    cases b <;> rfl
  · intro hagree
    cases hagree false _ _ _ rfl rfl rfl

end Systems

end ReadyEvent

end SLikeNet
