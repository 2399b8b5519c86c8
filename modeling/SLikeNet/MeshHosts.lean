import SLikeNet.HostCalculation
import SLikeNet.Library.GuardedRun
import Mathlib.Data.Finset.Card

/-! In a mesh every system has learned the `FCM2Guid` of the others, or will when what is on the
way has arrived, so that they have the same host. -/

namespace SLikeNet

namespace Mesh

open FullyConnectedMesh2

section Fields

variable (s : Mesh) (a b x y : ℕ)

theorem system_act (result : FullyConnectedMesh2 × Sent) :
    (s.act a result).system x = if x = a then result.1 else s.system x :=
  Function.update_apply _ _ _ _

theorem inFlight_act (result : FullyConnectedMesh2 × Sent) :
    (s.act a result).inFlight x y =
      if x = a then s.inFlight a y ++ s.send a result.2 y else s.inFlight x y := by
  have happly : (s.act a result).inFlight x =
      if x = a then (fun b => s.inFlight a b ++ s.send a result.2 b) else s.inFlight x :=
    Function.update_apply _ _ _ _
  rw [happly]
  split <;> rfl

theorem link_setLink (connectionEnd : ConnectionEnd) :
    (s.setLink a b connectionEnd).link x y =
      if x = a ∧ y = b then connectionEnd else s.link x y := by
  have happly : (s.setLink a b connectionEnd).link x =
      if x = a then Function.update (s.link a) b connectionEnd else s.link x :=
    Function.update_apply _ _ _ _
  rw [happly]
  by_cases hx : x = a
  · rw [if_pos hx, Function.update_apply]
    by_cases hy : y = b
    · rw [if_pos hy, if_pos ⟨hx, hy⟩]
    · rw [if_neg hy, if_neg fun h => hy h.2, hx]
  · rw [if_neg hx, if_neg fun h => hx h.1]

theorem inFlight_setInFlight (messages : List Message) :
    (s.setInFlight a b messages).inFlight x y =
      if x = a ∧ y = b then messages else s.inFlight x y := by
  have happly : (s.setInFlight a b messages).inFlight x =
      if x = a then Function.update (s.inFlight a) b messages else s.inFlight x :=
    Function.update_apply _ _ _ _
  rw [happly]
  by_cases hx : x = a
  · rw [if_pos hx, Function.update_apply]
    by_cases hy : y = b
    · rw [if_pos hy, if_pos ⟨hx, hy⟩]
    · rw [if_neg hy, if_neg fun h => hy h.2, hx]
  · rw [if_neg hx, if_neg fun h => hx h.1]

end Fields

/-- The system `b` has the `FCM2Guid` of `a`, or will have it. -/
def Told (s : Mesh) (a b : ℕ) : Prop :=
  s.link a b = .up → (s.system a).ourFCMGuid ≠ 0 →
    lastGuid (s.inFlight a b) = some (s.system a).ourFCMGuid ∨
    (lastGuid (s.inFlight a b) = none ∧
      ⟨a, (s.system a).ourFCMGuid⟩ ∈ (s.system b).fcm2ParticipantList)

structure Sound (s : Mesh) : Prop where
  link_self : ∀ a, s.link a a = .closed
  guids : ∀ a b, b ∈ (s.system a).guids ↔ s.link a b ≠ .closed
  nodup : ∀ a, (s.system a).guids.Nodup
  hostOk : ∀ a, (s.system a).HostOk a
  told : ∀ a b, s.Told a b
  issued : ∀ a, (s.system a).ourFCMGuid ≠ 0 → (a, (s.system a).ourFCMGuid) ∈ s.assigned

/-- A closed connection can be opened where the other end is not one of an earlier connection;
messages arrive at an end that is not closed. -/
def Possible (s : Mesh) : Operation → Prop
  | .newConnection a b => a ≠ b ∧ s.link a b = .closed ∧ s.link b a ≠ .lost
  | .closedConnection a b => s.link a b ≠ .closed
  | .resetHostCalculation _ => True
  | .deliver _ a b => s.link b a ≠ .closed

instance (s : Mesh) : (op : Operation) → Decidable (s.Possible op)
  | .newConnection a b =>
    inferInstanceAs (Decidable (a ≠ b ∧ s.link a b = .closed ∧ s.link b a ≠ .lost))
  | .closedConnection a b => inferInstanceAs (Decidable (s.link a b ≠ .closed))
  | .resetHostCalculation _ => inferInstanceAs (Decidable True)
  | .deliver _ a b => inferInstanceAs (Decidable (s.link b a ≠ .closed))

/-- The host calculation is reset before a host was published, and the last participant whose
`FCM2Guid` is not known does not leave a system that has not the right host. -/
def Handled (s : Mesh) : Operation → Prop
  | .resetHostCalculation a => (s.system a).lastPushedHost = none
  | .closedConnection a b => (s.system a).CloseHandled a b
  | _ => True

def Reachable (allowed : Mesh → Operation → Prop) : Mesh → Prop :=
  GuardedRun.Reachable perform (fun s op => s.Possible op ∧ allowed s op) start

variable {s : Mesh}

theorem sound_start : start.Sound := by
  constructor
  · exact fun a => rfl
  · intro a b
    constructor
    · intro h
      cases h
    · exact fun h => (h rfl).elim
  · exact fun a => List.nodup_nil
  · exact fun a => ⟨rfl, fun h => (h rfl).elim⟩
  · intro a b h
    cases h
  · exact fun a h => (h rfl).elim

theorem issued_act (h : ∀ x, (s.system x).ourFCMGuid ≠ 0 →
    (x, (s.system x).ourFCMGuid) ∈ s.assigned) (a : ℕ) (result : FullyConnectedMesh2 × Sent) (x : ℕ)
    (hx : ((s.act a result).system x).ourFCMGuid ≠ 0) :
    (x, ((s.act a result).system x).ourFCMGuid) ∈ (s.act a result).assigned := by
  have hassigned : (s.act a result).assigned =
      if (s.system a).ourFCMGuid ≠ result.1.ourFCMGuid ∧ result.1.ourFCMGuid ≠ 0 then
        (a, result.1.ourFCMGuid) :: s.assigned
      else s.assigned := rfl
  rw [system_act] at hx ⊢
  rw [hassigned]
  by_cases heq : x = a
  · rw [if_pos heq] at hx ⊢
    by_cases hnew : (s.system a).ourFCMGuid ≠ result.1.ourFCMGuid
    · rw [if_pos ⟨hnew, hx⟩, heq]
      exact List.mem_cons_self
    · have hsame : (s.system a).ourFCMGuid = result.1.ourFCMGuid := Decidable.not_not.mp hnew
      rw [if_neg fun hboth => hnew hboth.1, heq, ← hsame]
      rw [← hsame] at hx
      exact h a hx
  · rw [if_neg heq] at hx ⊢
    split
    · exact List.mem_cons_of_mem _ (h x hx)
    · exact h x hx

/-! ### Deliveries -/

theorem Sound.received (h : s.Sound) {a b : ℕ} {message : Message} {rest : List Message}
    {result : FullyConnectedMesh2 × Sent} (hne : b ≠ a)
    (hflight : s.inFlight a b = message :: rest)
    (hreceives : Receives b a message.fcmGuid? (s.system b) result.1 result.2) :
    ((s.setInFlight a b rest).act b result).Sound := by
  have hlinks : ((s.setInFlight a b rest).act b result).link = s.link := rfl
  have hsystem : ∀ x, x ≠ b →
      ((s.setInFlight a b rest).act b result).system x = s.system x := by
    intro x hx
    rw [system_act, if_neg hx]
    rfl
  have hsystem' : ((s.setInFlight a b rest).act b result).system b = result.1 := by
    rw [system_act, if_pos rfl]
  have hissued : ∀ x, (((s.setInFlight a b rest).act b result).system x).ourFCMGuid ≠ 0 →
      (x, (((s.setInFlight a b rest).act b result).system x).ourFCMGuid) ∈
        ((s.setInFlight a b rest).act b result).assigned :=
    issued_act (s := s.setInFlight a b rest) h.issued b result
  refine ⟨h.link_self, ?_, ?_, ?_, ?_, hissued⟩
  · intro x y
    rw [hlinks]
    by_cases hx : x = b
    · rw [hx, hsystem', hreceives.guids]
      exact h.guids b y
    · rw [hsystem x hx]
      exact h.guids x y
  · intro x
    by_cases hx : x = b
    · rw [hx, hsystem', hreceives.guids]
      exact h.nodup b
    · rw [hsystem x hx]
      exact h.nodup x
  · intro x
    by_cases hx : x = b
    · rw [hx, hsystem']
      exact hreceives.hostOk (h.hostOk b)
    · rw [hsystem x hx]
      exact h.hostOk x
  · intro x y hup hown
    rw [hlinks] at hup
    rw [inFlight_act, inFlight_setInFlight, inFlight_setInFlight]
    have hyx : y ≠ x := by
      intro heq
      rw [heq, h.link_self] at hup
      cases hup
    by_cases hx : x = b
    · -- the receiver tells the others what it has assigned
      rw [hx] at hup hown hyx ⊢
      rw [hsystem'] at hown ⊢
      have hsend : (s.setInFlight a b rest).send b result.2 y = LastReport.sentTo y result.2 :=
        if_pos hup
      rw [if_pos rfl, if_neg fun hboth => hne hboth.1, hsystem y hyx, lastGuid_append, hsend]
      have hmem : y ∈ (s.system b).guids := (h.guids b y).mpr (by rw [hup]; decide)
      rcases hreceives.tells y hmem hown with hsent | ⟨hnone, hsame⟩
      · left
        rw [hsent]
        rfl
      · rw [hnone, ← hsame]
        rw [← hsame] at hown
        exact h.told b y hup hown
    · rw [hsystem x hx] at hown ⊢
      rw [if_neg hx]
      by_cases hpair : x = a ∧ y = b
      · -- what was told is learned
        rw [if_pos hpair]
        obtain ⟨rfl, rfl⟩ := hpair
        have hold := h.told x y hup hown
        rw [hflight, lastGuid_cons] at hold
        rw [hsystem']
        cases hlast : lastGuid rest with
        | some guid =>
          rw [hlast] at hold
          rcases hold with hold | hold
          · exact .inl hold
          · cases hold.1
        | none =>
          rw [hlast] at hold
          right
          refine ⟨rfl, ?_⟩
          rcases hold with hold | ⟨hnone, hrecord⟩
          · exact hreceives.told _ hold
          · exact hreceives.untold hnone _ hrecord
      · rw [if_neg hpair]
        by_cases hy : y = b
        · rw [hy, hsystem']
          rw [hy] at hup hpair
          rcases h.told x b hup hown with hold | ⟨hnone, hrecord⟩
          · exact .inl hold
          · exact .inr ⟨hnone, hreceives.other _ hrecord fun hxa => hpair ⟨hxa, rfl⟩⟩
        · rw [hsystem y hy]
          exact h.told x y hup hown

theorem Sound.deliver (h : s.Sound) (choices : Choices) {a b : ℕ} (hlink : s.link b a ≠ .closed) :
    (s.deliver choices a b).Sound := by
  cases hflight : s.inFlight a b with
  | nil =>
    have hsame : s.deliver choices a b = s := by rw [Mesh.deliver, hflight]
    rw [hsame]
    exact h
  | cons message rest =>
    have hdeliver : s.deliver choices a b =
        (s.setInFlight a b rest).act b ((s.system b).onReceive b choices a message) := by
      rw [Mesh.deliver, hflight]
    rw [hdeliver]
    have hmem := (h.guids b a).mpr hlink
    have hne : b ≠ a := by
      intro heq
      rw [heq] at hlink
      exact hlink (h.link_self a)
    exact h.received hne hflight (onReceive_receives choices hmem message)

/-! ### New connections -/

/-- With a new participant. -/
def joined (rakNetGuid : ℕ) (m : FullyConnectedMesh2) : FullyConnectedMesh2 :=
  { m with fcm2ParticipantList := m.fcm2ParticipantList ++ [⟨rakNetGuid, 0⟩] }

theorem onNewConnection_eq {m : FullyConnectedMesh2} {ourGuid rakNetGuid : ℕ}
    (hnew : rakNetGuid ∉ m.guids) :
    m.onNewConnection ourGuid rakNetGuid =
      (joined rakNetGuid m, m.sendFCMGuidRequest ourGuid rakNetGuid) := by
  rw [onNewConnection, addParticipantInternal,
    if_neg fun hmem => hnew (hasParticipant_iff.mp hmem)]
  rfl

theorem sendFCMGuidRequest_sentTo {m : FullyConnectedMesh2} {ourGuid rakNetGuid : ℕ}
    (hne : rakNetGuid ≠ ourGuid) (hown : m.ourFCMGuid ≠ 0) (y : ℕ) :
    lastGuid (LastReport.sentTo y (m.sendFCMGuidRequest ourGuid rakNetGuid)) =
      if y = rakNetGuid then some m.ourFCMGuid else none := by
  rw [sendFCMGuidRequest, if_neg hne, if_neg hown, LastReport.sentTo, List.filterMap_cons]
  by_cases heq : y = rakNetGuid
  · rw [if_pos heq, if_pos heq.symm, lastGuid, List.filterMap_nil, LastReport.last_cons,
      Message.fcmGuid?, if_neg hown]
    rfl
  · rw [if_neg heq, if_neg fun heq' => heq heq'.symm]
    rfl

theorem Sound.newConnection (h : s.Sound) {a b : ℕ} (hne : a ≠ b)
    (hclosed : s.link a b = .closed) : (s.newConnection a b).Sound := by
  have hnew : b ∉ (s.system a).guids := fun hmem => (h.guids a b).mp hmem hclosed
  have hresult := @onNewConnection_eq (s.system a) a b hnew
  have hlinks : ∀ x y, (s.newConnection a b).link x y =
      if x = a ∧ y = b then .up else s.link x y := fun x y => link_setLink s a b x y .up
  have hsystem : ∀ x, x ≠ a → (s.newConnection a b).system x = s.system x := by
    intro x hx
    rw [Mesh.newConnection, system_act, if_neg hx]
    rfl
  have hsystem' : (s.newConnection a b).system a = joined b (s.system a) := by
    rw [Mesh.newConnection, system_act, if_pos rfl, hresult]
  have hguids : ((s.newConnection a b).system a).guids = (s.system a).guids ++ [b] := by
    rw [hsystem', FullyConnectedMesh2.guids, joined, List.map_append]
    rfl
  refine ⟨?_, ?_, ?_, ?_, ?_, ?_⟩
  · intro x
    rw [hlinks, if_neg fun hboth => hne (hboth.1.symm.trans hboth.2)]
    exact h.link_self x
  · intro x y
    rw [hlinks]
    by_cases hx : x = a
    · rw [hx, hguids, List.mem_append, h.guids a y, List.mem_singleton]
      by_cases hy : y = b
      · rw [if_pos ⟨rfl, hy⟩]
        exact ⟨fun _ => by decide, fun _ => .inr hy⟩
      · rw [if_neg fun hboth => hy hboth.2]
        exact ⟨fun hor => hor.resolve_right hy, .inl⟩
    · rw [hsystem x hx, if_neg fun hboth => hx hboth.1]
      exact h.guids x y
  · intro x
    by_cases hx : x = a
    · rw [hx, hguids]
      exact (List.perm_append_singleton b _).nodup_iff.mpr
        (List.nodup_cons.mpr ⟨hnew, h.nodup a⟩)
    · rw [hsystem x hx]
      exact h.nodup x
  · intro x
    by_cases hx : x = a
    · rw [hx, hsystem']
      exact hostOk_of_incomplete (m := joined b (s.system a)) (h.hostOk a).published
        (List.mem_append_right _ List.mem_cons_self) rfl
    · rw [hsystem x hx]
      exact h.hostOk x
  · intro x y hup hown
    by_cases hx : x = a
    · have hsend : (s.setLink a b .up).send a ((s.system a).sendFCMGuidRequest a b) y =
          LastReport.sentTo y ((s.system a).sendFCMGuidRequest a b) :=
        if_pos (hx ▸ hup)
      have hflight : (s.newConnection a b).inFlight a y =
          s.inFlight a y ++ LastReport.sentTo y ((s.system a).sendFCMGuidRequest a b) := by
        rw [Mesh.newConnection, inFlight_act, if_pos rfl, hresult, hsend]
        rfl
      rw [hx, hsystem'] at hown
      have hown' : (s.system a).ourFCMGuid ≠ 0 := hown
      rw [hx, hsystem', hflight, lastGuid_append, sendFCMGuidRequest_sentTo hne.symm hown']
      by_cases hy : y = b
      · left
        rw [if_pos hy]
        rfl
      · rw [hx, hlinks, if_neg fun hboth => hy hboth.2] at hup
        have hya : y ≠ a := by
          intro heq
          rw [heq, h.link_self] at hup
          cases hup
        rw [if_neg hy, hsystem y hya]
        exact h.told a y hup hown
    · have hflight : (s.newConnection a b).inFlight x y = s.inFlight x y := by
        rw [Mesh.newConnection, inFlight_act, if_neg hx]
        rfl
      rw [hlinks, if_neg fun hboth => hx hboth.1] at hup
      rw [hsystem x hx] at hown ⊢
      rw [hflight]
      rcases h.told x y hup hown with hlast | ⟨hnone, hrecord⟩
      · exact .inl hlast
      · refine .inr ⟨hnone, ?_⟩
        by_cases hy : y = a
        · rw [hy] at hrecord ⊢
          rw [hsystem']
          exact List.mem_append_left _ hrecord
        · rw [hsystem y hy]
          exact hrecord
  · exact issued_act (s := s.setLink a b .up) h.issued a _

/-! ### Closed connections -/

theorem link_disconnect (s : Mesh) (a b x y : ℕ) :
    (s.disconnect a b).link x y =
      if x = b ∧ y = a ∧ s.link b a ≠ .closed then .lost
      else if x = a ∧ y = b then .closed else s.link x y := by
  rw [disconnect]
  cases hlink : s.link b a with
  | closed =>
    rw [if_neg fun hall => hall.2.2 rfl]
    exact link_setLink s a b x y .closed
  | up =>
    dsimp only
    rw [link_setLink]
    by_cases hpair : x = b ∧ y = a
    · rw [if_pos hpair, if_pos ⟨hpair.1, hpair.2, by decide⟩]
    · rw [if_neg hpair, if_neg fun hall => hpair ⟨hall.1, hall.2.1⟩]
      exact link_setLink s a b x y .closed
  | lost =>
    dsimp only
    rw [link_setLink]
    by_cases hpair : x = b ∧ y = a
    · rw [if_pos hpair, if_pos ⟨hpair.1, hpair.2, by decide⟩]
    · rw [if_neg hpair, if_neg fun hall => hpair ⟨hall.1, hall.2.1⟩]
      exact link_setLink s a b x y .closed

theorem inFlight_disconnect (s : Mesh) {a b x y : ℕ} (h : ¬(x = a ∧ y = b))
    (h' : ¬(x = b ∧ y = a)) : (s.disconnect a b).inFlight x y = s.inFlight x y := by
  have hcleared : ((s.setLink a b .closed).setInFlight b a []).inFlight x y = s.inFlight x y := by
    rw [inFlight_setInFlight, if_neg h']
    rfl
  rw [disconnect]
  split
  · rw [inFlight_setInFlight, if_neg h]
    exact hcleared
  · exact hcleared

theorem system_disconnect (s : Mesh) (a b x : ℕ) : (s.disconnect a b).system x = s.system x := by
  rw [disconnect]
  split <;> rfl

theorem assigned_disconnect (s : Mesh) (a b : ℕ) : (s.disconnect a b).assigned = s.assigned := by
  rw [disconnect]
  split <;> rfl

theorem up_disconnect {a b x y : ℕ} (hup : (s.disconnect a b).link x y = .up) :
    ¬(x = b ∧ y = a) ∧ ¬(x = a ∧ y = b) ∧ s.link x y = .up := by
  rw [link_disconnect] at hup
  split at hup
  · cases hup
  · rename_i hlost
    split at hup
    · cases hup
    · rename_i hclosed
      refine ⟨?_, hclosed, hup⟩
      rintro ⟨rfl, rfl⟩
      rw [hup] at hlost
      exact hlost ⟨rfl, rfl, by decide⟩

theorem inFlight_closedConnection (s : Mesh) {a b x y : ℕ} (h : ¬(x = a ∧ y = b))
    (h' : ¬(x = b ∧ y = a)) : (s.closedConnection a b).inFlight x y = s.inFlight x y := by
  rw [Mesh.closedConnection, inFlight_act]
  split
  · rename_i hx
    have hnothing : (s.disconnect a b).send a [] y = [] := by
      rw [send]
      split <;> rfl
    have hsame := inFlight_disconnect s h h'
    rw [hx] at hsame
    rw [hnothing, List.append_nil, hx]
    exact hsame
  · exact inFlight_disconnect s h h'

theorem Sound.closedConnection (h : s.Sound) {a b : ℕ} (hopen : s.link a b ≠ .closed)
    (hhandled : (s.system a).CloseHandled a b) : (s.closedConnection a b).Sound := by
  have hmem := (h.guids a b).mpr hopen
  have hne : a ≠ b := by
    intro heq
    rw [← heq] at hopen
    exact hopen (h.link_self a)
  obtain ⟨participant, hguid, hperm⟩ := onClosedConnection_list a hmem
  obtain ⟨hgone, hnodup⟩ := List.nodup_cons.mp ((hperm.map _).nodup_iff.mp (h.nodup a))
  have hlinks : ∀ x y, (s.closedConnection a b).link x y =
      if x = b ∧ y = a ∧ s.link b a ≠ .closed then .lost
      else if x = a ∧ y = b then .closed else s.link x y := link_disconnect s a b
  have hsystem : ∀ x, x ≠ a → (s.closedConnection a b).system x = s.system x := by
    intro x hx
    rw [Mesh.closedConnection, system_act, if_neg hx, system_disconnect]
  have hsystem' : (s.closedConnection a b).system a = (s.system a).onClosedConnection a b := by
    rw [Mesh.closedConnection, system_act, if_pos rfl]
  refine ⟨?_, ?_, ?_, ?_, ?_, ?_⟩
  · intro x
    rw [hlinks, if_neg fun hall => hne (hall.2.1.symm.trans hall.1),
      if_neg fun hboth => hne (hboth.1.symm.trans hboth.2)]
    exact h.link_self x
  · intro x y
    rw [hlinks]
    by_cases hx : x = a
    · rw [hx, hsystem', if_neg fun hall => hne hall.1]
      by_cases hy : y = b
      · rw [if_pos ⟨rfl, hy⟩, hy]
        refine ⟨fun hin => ?_, fun hnot => (hnot rfl).elim⟩
        rw [hguid] at hgone
        exact (hgone hin).elim
      · rw [if_neg fun hboth => hy hboth.2, ← h.guids a y]
        have hiff := (hperm.map (·.rakNetGuid)).mem_iff (a := y)
        rw [List.map_cons, List.mem_cons, hguid] at hiff
        exact ⟨fun hin => hiff.mpr (.inr hin), fun hin => (hiff.mp hin).resolve_left hy⟩
    · rw [hsystem x hx, h.guids x y]
      by_cases hpair : x = b ∧ y = a ∧ s.link b a ≠ .closed
      · rw [if_pos hpair, hpair.1, hpair.2.1]
        exact ⟨fun _ => by decide, fun _ => hpair.2.2⟩
      · rw [if_neg hpair, if_neg fun hboth => hx hboth.1]
  · intro x
    by_cases hx : x = a
    · rw [hx, hsystem']
      exact hnodup
    · rw [hsystem x hx]
      exact h.nodup x
  · intro x
    by_cases hx : x = a
    · rw [hx, hsystem']
      exact (h.hostOk a).onClosedConnection (h.nodup a) hhandled
    · rw [hsystem x hx]
      exact h.hostOk x
  · intro x y hup hown
    obtain ⟨hpair, hpair', hup⟩ := up_disconnect hup
    have hflight := inFlight_closedConnection s hpair' hpair
    have hown' : ((s.closedConnection a b).system x).ourFCMGuid = (s.system x).ourFCMGuid := by
      by_cases hx : x = a
      · rw [hx, hsystem', onClosedConnection_ourFCMGuid]
      · rw [hsystem x hx]
    rw [hown'] at hown ⊢
    rw [hflight]
    rcases h.told x y hup hown with hlast | ⟨hnone, hrecord⟩
    · exact .inl hlast
    · refine .inr ⟨hnone, ?_⟩
      by_cases hy : y = a
      · rw [hy] at hrecord ⊢
        rw [hsystem']
        rcases List.mem_cons.mp (hperm.mem_iff.mp hrecord) with heq | hrecord
        · exact (hpair ⟨(congrArg (·.rakNetGuid) heq).trans hguid, hy⟩).elim
        · exact hrecord
      · rw [hsystem y hy]
        exact hrecord
  · have hissued := issued_act (s := s.disconnect a b) (fun x hx => by
      rw [system_disconnect] at hx ⊢
      rw [assigned_disconnect]
      exact h.issued x hx) a ((s.system a).onClosedConnection a b, [])
    exact hissued

theorem Sound.resetHostCalculation (h : s.Sound) {a : ℕ}
    (hhandled : (s.system a).lastPushedHost = none) : (s.resetHostCalculation a).Sound := by
  have hsystem : ∀ x, x ≠ a → (s.resetHostCalculation a).system x = s.system x := by
    intro x hx
    rw [Mesh.resetHostCalculation, system_act, if_neg hx]
  have hsystem' : (s.resetHostCalculation a).system a = (s.system a).forgetHost := by
    rw [Mesh.resetHostCalculation, system_act, if_pos rfl]
    rfl
  have hlist : ∀ x, ((s.resetHostCalculation a).system x).fcm2ParticipantList =
      (s.system x).fcm2ParticipantList := by
    intro x
    by_cases hx : x = a
    · rw [hx, hsystem']
      rfl
    · rw [hsystem x hx]
  have hguids : ∀ x, ((s.resetHostCalculation a).system x).guids = (s.system x).guids := by
    intro x
    rw [FullyConnectedMesh2.guids, hlist]
    rfl
  refine ⟨h.link_self, ?_, ?_, ?_, ?_, issued_act h.issued a _⟩
  · intro x y
    rw [hguids]
    exact h.guids x y
  · intro x
    rw [hguids]
    exact h.nodup x
  · intro x
    by_cases hx : x = a
    · rw [hx, hsystem']
      exact ⟨hhandled.symm, fun hown => (hown rfl).elim⟩
    · rw [hsystem x hx]
      exact h.hostOk x
  · intro x y hup hown
    by_cases hx : x = a
    · rw [hx, hsystem'] at hown
      exact (hown rfl).elim
    · have hflight : (s.resetHostCalculation a).inFlight x y = s.inFlight x y := by
        rw [Mesh.resetHostCalculation, inFlight_act, if_neg hx]
      rw [hsystem x hx] at hown ⊢
      rw [hflight, hlist]
      exact h.told x y hup hown

/-! ### Runs -/

theorem Sound.perform (h : s.Sound) {op : Operation} (hpossible : s.Possible op)
    (hhandled : s.Handled op) : (s.perform op).Sound := by
  cases op with
  | newConnection a b => exact h.newConnection hpossible.1 hpossible.2.1
  | closedConnection a b => exact h.closedConnection hpossible hhandled
  | resetHostCalculation a => exact h.resetHostCalculation hhandled
  | deliver choices a b => exact h.deliver choices hpossible

theorem Reachable.sound (h : Reachable Handled s) : s.Sound :=
  GuardedRun.Reachable.invariant (I := Sound) h sound_start
    fun _ _ hs hop => hs.perform hop.1 hop.2

/-- Nothing is on the way, the `remaining` systems are connected with each other and with no other,
and have assigned their `FCM2Guid`. -/
structure Quiet (s : Mesh) (remaining : Finset ℕ) : Prop where
  inFlight : ∀ a b, s.inFlight a b = []
  link : ∀ a ∈ remaining, ∀ b,
    s.link a b = if b ∈ remaining ∧ b ≠ a then .up else .closed
  ourFCMGuid : ∀ a ∈ remaining, (s.system a).ourFCMGuid ≠ 0

/-- All have the system with the smallest `FCM2Guid` for the host. -/
def HostAgreed (s : Mesh) (remaining : Finset ℕ) : Prop :=
  ∃ host ∈ remaining, (∀ b ∈ remaining, b ≠ host →
      (s.system host).ourFCMGuid < (s.system b).ourFCMGuid) ∧
    ∀ a ∈ remaining, (s.system a).getConnectedHost = some host

theorem Sound.mem_entries (h : s.Sound) {remaining : Finset ℕ} (hquiet : s.Quiet remaining)
    {a : ℕ} (ha : a ∈ remaining) (b : ℕ) :
    b ∈ remaining → ⟨b, (s.system b).ourFCMGuid⟩ ∈ (s.system a).entries a := by
  intro hb
  by_cases heq : b = a
  · rw [heq]
    exact List.mem_cons_self
  · have hup : s.link b a = .up := by
      rw [hquiet.link b hb, if_pos ⟨ha, fun heq' => heq heq'.symm⟩]
    rcases h.told b a hup (hquiet.ourFCMGuid b hb) with hlast | ⟨-, hrecord⟩
    · rw [hquiet.inFlight] at hlast
      cases hlast
    · exact List.mem_cons_of_mem _ hrecord

theorem Sound.entry_eq (h : s.Sound) {remaining : Finset ℕ} (hquiet : s.Quiet remaining)
    {a : ℕ} (ha : a ∈ remaining) {entry : FCM2Participant}
    (hentry : entry ∈ (s.system a).entries a) :
    entry.rakNetGuid ∈ remaining ∧
      entry.fcm2Guid = (s.system entry.rakNetGuid).ourFCMGuid := by
  rcases List.mem_cons.mp hentry with rfl | hlist
  · exact ⟨ha, rfl⟩
  · have hopen := (h.guids a entry.rakNetGuid).mp (mem_guids hlist)
    rw [hquiet.link a ha] at hopen
    have hother : entry.rakNetGuid ∈ remaining ∧ entry.rakNetGuid ≠ a := by
      by_contra hnot
      exact hopen (if_neg hnot)
    refine ⟨hother.1, ?_⟩
    have hknown := h.mem_entries hquiet ha _ hother.1
    rcases List.mem_cons.mp hknown with hus | hknown
    · exact (hother.2 (congrArg (·.rakNetGuid) hus)).elim
    · have hsame := List.inj_on_of_nodup_map (h.nodup a) hlist hknown rfl
      exact congrArg (·.fcm2Guid) hsame

theorem host_agreed (h : Reachable Handled s) (hdistinct : (s.assigned.map Prod.snd).Nodup)
    {remaining : Finset ℕ} (htwo : 2 ≤ remaining.card) (hquiet : s.Quiet remaining) :
    s.HostAgreed remaining := by
  have hs := h.sound
  have hinj : ∀ a ∈ remaining, ∀ b ∈ remaining,
      (s.system a).ourFCMGuid = (s.system b).ourFCMGuid → a = b := by
    intro a ha b hb heq
    have hsame := List.inj_on_of_nodup_map hdistinct (hs.issued a (hquiet.ourFCMGuid a ha))
      (hs.issued b (hquiet.ourFCMGuid b hb)) heq
    exact congrArg Prod.fst hsame
  have hhost : ∀ a ∈ remaining, ∃ host ∈ remaining,
      (∀ b ∈ remaining, (s.system host).ourFCMGuid ≤ (s.system b).ourFCMGuid) ∧
        (s.system a).getConnectedHost = some host := by
    intro a ha
    have hown := hquiet.ourFCMGuid a ha
    have hcomplete : (s.system a).participantListComplete = true := by
      apply participantListComplete_iff.mpr
      intro participant hparticipant
      obtain ⟨hin, hguid⟩ := hs.entry_eq hquiet ha (List.mem_cons_of_mem _ hparticipant)
      rw [hguid]
      exact hquiet.ourFCMGuid _ hin
    have hothers : (s.system a).fcm2ParticipantList ≠ [] := by
      obtain ⟨b, hb, hne⟩ := Finset.exists_mem_ne htwo a
      intro hnil
      have hmem := (hs.guids a b).mpr (by rw [hquiet.link a ha, if_pos ⟨hb, hne⟩]; decide)
      rw [guids, hnil] at hmem
      cases hmem
    obtain ⟨guid, hset, lowest, hlowest, rfl, -, hle⟩ :=
      (hs.hostOk a).lowest hown hcomplete hothers
    obtain ⟨hin, hguid⟩ := hs.entry_eq hquiet ha hlowest
    refine ⟨lowest.rakNetGuid, hin, ?_, ?_⟩
    · intro b hb
      rw [← hguid]
      exact hle _ (hs.mem_entries hquiet ha b hb) (hquiet.ourFCMGuid b hb)
    · rw [getConnectedHost, if_neg hown]
      exact hset
  obtain ⟨first, hfirst⟩ := Finset.card_pos.mp (Nat.lt_of_lt_of_le Nat.zero_lt_two htwo)
  obtain ⟨host, hin, hle, -⟩ := hhost first hfirst
  refine ⟨host, hin, ?_, ?_⟩
  · intro b hb hne
    exact Nat.lt_of_le_of_ne (hle b hb) fun heq => hne (hinj host hin b hb heq).symm
  · intro a ha
    obtain ⟨host', hin', hle', hset⟩ := hhost a ha
    rw [hset, hinj host' hin' host hin (Nat.le_antisymm (hle' host hin) (hle host' hin'))]

/-- A message arrives, and the random number is `randomNumber`. -/
def delivery (randomNumber : BitVec 32) (a b : ℕ) : Operation := .deliver ⟨randomNumber, true⟩ a b

/-- Two systems connect. -/
def joinOperations : List Operation :=
  [.newConnection 0 1, .newConnection 1 0, delivery 0 0 1, delivery 0 1 0, delivery 7 1 0,
    delivery 8 0 1, delivery 0 0 1, delivery 0 1 0]

/-- Then one of them resets its host calculation. -/
def resetOperations : List Operation :=
  [.resetHostCalculation 1, delivery 0 1 0, delivery 9 0 1, delivery 0 1 0]

def joined2 : Mesh := joinOperations.foldl perform start

def reset2 : Mesh := resetOperations.foldl perform joined2

theorem reachable_joined2 : Reachable Handled joined2 := by
  refine GuardedRun.Reachable.run .start (.intro ⟨⟨?_, ?_, ?_⟩, trivial⟩
    (.intro ⟨⟨?_, ?_, ?_⟩, trivial⟩ (.intro ⟨?_, trivial⟩ (.intro ⟨?_, trivial⟩
      (.intro ⟨?_, trivial⟩ (.intro ⟨?_, trivial⟩ (.intro ⟨?_, trivial⟩
        (.intro ⟨?_, trivial⟩ trivial))))))))
  all_goals decide +kernel

theorem reachable_reset2 : Reachable (fun _ _ => True) reset2 := by
  have hjoined : Reachable (fun _ _ => True) joined2 :=
    GuardedRun.Reachable.imp reachable_joined2 fun _ _ hop => ⟨hop.1, trivial⟩
  refine GuardedRun.Reachable.run hjoined (.intro ⟨trivial, trivial⟩ (.intro ⟨?_, trivial⟩
    (.intro ⟨?_, trivial⟩ (.intro ⟨?_, trivial⟩ trivial))))
  all_goals decide +kernel

theorem link_joined {s : Mesh} (hup : s.link 0 1 = .up) (hup' : s.link 1 0 = .up)
    (hself : s.link 0 0 = .closed) (hself' : s.link 1 1 = .closed)
    (hother : ∀ b, s.link 0 (b + 2) = .closed ∧ s.link 1 (b + 2) = .closed) :
    ∀ a ∈ ({0, 1} : Finset ℕ), ∀ b,
      s.link a b = if b ∈ ({0, 1} : Finset ℕ) ∧ b ≠ a then .up else .closed := by
  intro a ha b
  have hmem : a = 0 ∨ a = 1 := by simpa using ha
  rcases hmem with rfl | rfl
  · rcases b with _ | _ | b
    · exact hself
    · exact hup
    · rw [if_neg (by simp)]
      exact (hother b).1
  · rcases b with _ | _ | b
    · exact hup'
    · exact hself'
    · rw [if_neg (by simp)]
      exact (hother b).2

theorem quiet_joined2 : joined2.Quiet {0, 1} := by
  refine ⟨?_, link_joined rfl rfl rfl rfl fun b => ⟨rfl, rfl⟩, by decide +kernel⟩
  intro a b
  rcases a with _ | _ | a <;> rcases b with _ | _ | b <;> rfl

theorem quiet_reset2 : reset2.Quiet {0, 1} := by
  refine ⟨?_, link_joined rfl rfl rfl rfl fun b => ⟨rfl, rfl⟩, by decide +kernel⟩
  intro a b
  rcases a with _ | _ | a <;> rcases b with _ | _ | b <;> rfl

theorem host_agreed_joined2 : joined2.HostAgreed {0, 1} :=
  host_agreed reachable_joined2 (by decide +kernel) (by decide) quiet_joined2

instance (s : Mesh) (remaining : Finset ℕ) : Decidable (s.HostAgreed remaining) :=
  inferInstanceAs (Decidable (∃ host ∈ remaining, _ ∧ _))

/-- The host was published before the reset and is not set again. -/
theorem reset2_disagrees :
    Reachable (fun _ _ => True) reset2 ∧ (reset2.assigned.map Prod.snd).Nodup ∧
      reset2.Quiet {0, 1} ∧ ¬reset2.HostAgreed {0, 1} :=
  ⟨reachable_reset2, by decide +kernel, quiet_reset2, by decide +kernel⟩

end Mesh

end SLikeNet
