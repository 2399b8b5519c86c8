import SLikeNet.CloudServerSteps
import SLikeNet.Library.GuardedRun

/-! The runs of a `CloudServer`: what each message does to the store, and the counters and the
notifications of every run. -/

namespace SLikeNet

variable {Key Guid : Type} [LinearOrder Key] [LinearOrder Guid]

/-! ### One message -/

namespace CloudHistory

variable {h : CloudHistory Key Guid} {guid : Guid} {key : Key}

/-- The notifications that a message calls for: of a key that is posted, and of each key that is
released, or whose uploader is gone, to the clients whose subscription covers the uploader. -/
def Due (h : CloudHistory Key Guid) (n : CloudNotification Key Guid) :
    CloudMessage Key Guid → Prop
  | .post guid key _ => n.wasUpdated = true ∧ n.uploader = guid ∧ n.key = key ∧
    ∃ r, h.coverage key n.subscriber = some r ∧ r.Covers guid
  | .release guid keys => n.wasUpdated = false ∧ n.uploader = guid ∧ n.key ∈ keys ∧
    guid ∈ h.posters n.key ∧ ∃ r, h.coverage n.key n.subscriber = some r ∧ r.Covers guid
  | .closedConnection guid => n.wasUpdated = false ∧ n.uploader = guid ∧
    guid ∈ h.posters n.key ∧ ∃ r, h.coverage n.key n.subscriber = some r ∧ r.Covers guid
  | _ => False

theorem posters_foldl_forget {keys : List Key} : (keys.foldl (forget guid) h).posters key =
    if key ∈ keys then (h.posters key).erase guid else h.posters key := by
  induction keys generalizing h with
  | nil => rfl
  | cons key' keys ih =>
    rw [List.foldl_cons, ih, posters_forget, Function.update_apply]
    by_cases heq : key = key'
    · rw [if_pos heq, if_pos (List.mem_cons.mpr (.inl heq)), heq, Finset.erase_idem, ite_self]
    · simp only [List.mem_cons, heq, false_or, if_false]

theorem coverage_foldl_cover {keys : List Key} {r : Option (Coverage Guid)} {guid' : Guid} :
    (keys.foldl (fun h key => h.cover guid key r) h).coverage key guid' =
      if key ∈ keys ∧ guid' = guid then r else h.coverage key guid' := by
  induction keys generalizing h with
  | nil => exact (if_neg fun hmem => List.not_mem_nil hmem.1).symm
  | cons key' keys ih =>
    rw [List.foldl_cons, ih, coverage_cover_eq, Function.update_apply]
    by_cases heq : key = key'
    · rw [if_pos heq, heq, Function.update_apply]
      simp only [List.mem_cons, true_or, true_and]
      grind
    · simp only [List.mem_cons, heq, false_or, if_false]

theorem posters_foldl_cover {keys : List Key} {r : Option (Coverage Guid)} :
    (keys.foldl (fun h key => h.cover guid key r) h).posters = h.posters := by
  induction keys generalizing h with
  | nil => rfl
  | cons key' keys ih => exact ih

theorem contents_foldl_cover {keys : List Key} {r : Option (Coverage Guid)} :
    (keys.foldl (fun h key => h.cover guid key r) h).contents = h.contents := by
  induction keys generalizing h with
  | nil => rfl
  | cons key' keys ih => exact ih

theorem coverage_foldl_forget {keys : List Key} :
    (keys.foldl (forget guid) h).coverage = h.coverage := by
  induction keys generalizing h with
  | nil => rfl
  | cons key' keys ih => exact ih

theorem posters_foldl_uncover {keys : List Key} {specificSystems : List Guid} :
    (keys.foldl (uncover guid specificSystems) h).posters = h.posters := by
  induction keys generalizing h with
  | nil => rfl
  | cons key' keys ih => exact ih

theorem foldl_uncover_of_none {keys : List Key} {specificSystems : List Guid}
    (hnone : ∀ key, h.coverage key guid = none) :
    keys.foldl (uncover guid specificSystems) h = h := by
  induction keys with
  | nil => rfl
  | cons key' keys ih =>
    have hsame : h.uncover guid specificSystems key' = h := by
      rw [uncover, hnone, Option.bind_none, ← hnone key', cover_self]
    rw [List.foldl_cons, hsame, ih]

theorem record_closedConnection (h : CloudHistory Key Guid) (guid : Guid) (keys keys' : List Key)
    (hkeys : ∀ key, guid ∈ h.posters key → key ∈ keys)
    (hkeys' : ∀ key, h.coverage key guid ≠ none → key ∈ keys') :
    keys'.foldl (fun h key => h.cover guid key none) (keys.foldl (forget guid) h) =
      h.record (.closedConnection guid) := by
  have hposters : ∀ key, (keys'.foldl (fun h key => h.cover guid key none)
      (keys.foldl (forget guid) h)).posters key = (h.posters key).erase guid := by
    intro key
    rw [posters_foldl_cover, posters_foldl_forget]
    split
    · rfl
    · next hnot => exact (Finset.erase_eq_of_notMem fun hmem => hnot (hkeys key hmem)).symm
  have hcoverage : ∀ key c, (keys'.foldl (fun h key => h.cover guid key none)
      (keys.foldl (forget guid) h)).coverage key c =
        Function.update (h.coverage key) guid none c := by
    intro key c
    rw [coverage_foldl_cover, coverage_foldl_forget, Function.update_apply]
    by_cases heq : c = guid
    · rw [if_pos heq]
      split
      · rfl
      · next hnot =>
        rw [heq]
        by_contra hne
        exact hnot ⟨hkeys' key hne, heq⟩
    · rw [if_neg heq, if_neg fun hboth => heq hboth.2]
  have hcontents : (keys'.foldl (fun h key => h.cover guid key none)
      (keys.foldl (forget guid) h)).contents = h.contents := by
    rw [contents_foldl_cover, CloudServer.contents_foldl_forget]
  unfold record
  generalize keys'.foldl _ _ = h' at hposters hcoverage hcontents
  obtain ⟨posters, contents, coverage⟩ := h'
  congr 1
  · exact funext hposters
  · exact funext fun key => funext (hcoverage key)

end CloudHistory

namespace CloudServer

open CloudHistory

variable {s s' : CloudServer Key Guid} {h h₀ : CloudHistory Key Guid} {guid : Guid} {key : Key}
  {exact : Prop}

/-- A message that the server is meant for. A key is posted where the server has no entry of the
system, or, where the counters may be too high, one that is an upload. A client that subscribes
names a key where it has posted something and is not subscribed. The counters are `exact` where a
list of systems has none twice, and the last client that has posted a key gives it up without
being subscribed to by its name. -/
def Accepts (exact : Prop) (h : CloudHistory Key Guid) (s : CloudServer Key Guid) :
    CloudMessage Key Guid → Prop
  | .post guid key _ => ∀ d, (s.getOrAllocateCloudDataList key).keyData.lookup guid = some d →
    ¬exact ∧ d.isUploaded = true
  | .release guid keys => exact → ∀ key ∈ keys, h.NotByName guid key
  | .get guid keys specificSystems subscribeToResults => subscribeToResults = true →
    (exact → specificSystems.Nodup) ∧
    (keys = [] → (∀ key, h.coverage key guid = none) → ∀ key, guid ∉ h.posters key)
  | .unsubscribe _ _ _ => True
  | .closedConnection guid => exact → ∀ key, h.NotByName guid key

/-- The server after a message, with what it has sent. -/
structure Received (exact : Prop) (h : CloudHistory Key Guid) (message : CloudMessage Key Guid)
    (s' : CloudServer Key Guid) : Prop where
  lists : s'.ListsAgree exact (h.record message)
  clients : s'.ClientsAgree (h.record message)
  commands : exact → ∀ key, .removeUploadedKey key ∈ s'.commands ↔
    h.posters key ≠ ∅ ∧ (h.record message).posters key = ∅
  nodup : s'.notifications.Nodup
  notified : ∀ n, n ∈ s'.notifications ↔ h.Due n message

theorem ClientsAgree.deleteClient (hc : s.ClientsAgree h)
    (hunused : IsUnused (s.client guid)) : (s.setClient guid none).ClientsAgree h := by
  refine hc.setClient (r := none) ?_ fun guid' c _ hagrees => hagrees
  have hkept := (hc guid).kept
  rw [if_pos hunused] at hkept
  exact hkept

theorem received_of_quiet {message : CloudMessage Key Guid} (hquiet : Quiet s s')
    (hlists : s'.ListsAgree exact (h.record message))
    (hclients : s'.ClientsAgree (h.record message))
    (hposters : (h.record message).posters = h.posters) (hdue : ∀ n, ¬h.Due n message)
    (hcommands : s.commands = []) (hnotifications : s.notifications = 0) :
    Received exact h message s' where
  lists := hlists
  clients := hclients
  commands _ key := by
    rw [hquiet.commands, hcommands, hposters]
    exact iff_of_false List.not_mem_nil fun hboth => hboth.1 hboth.2
  nodup := by
    rw [hquiet.notifications, hnotifications]
    exact Multiset.nodup_zero
  notified n := by
    rw [hquiet.notifications, hnotifications]
    exact iff_of_false (Multiset.notMem_zero n) (hdue n)

theorem onGetRequest_spec {keys : List Key} {specificSystems : List Guid}
    (hs : s.ListsAgree exact h) (hc : s.ClientsAgree h)
    (hnodup : exact → specificSystems.Nodup)
    (hkeys : keys = [] → (∀ key, h.coverage key guid = none) → ∀ key, guid ∉ h.posters key) :
    ∃ s', s.onGetRequest guid keys specificSystems = some s' ∧ Covered exact guid
      (keys.foldl (fun h key => h.cover guid key (some (.ofList specificSystems))) h) s s' := by
  have hclients : (s.setClient guid (some (s.client guid))).ClientsAgree h :=
    hc.setClient (r := some _) (hc guid) fun guid' c _ hagrees => hagrees
  obtain ⟨s', hs', hcovered⟩ := subscribeLoop_spec guid keys
    (s := s.setClient guid (some (s.client guid))) hs hclients hnodup
  refine ⟨_, by rw [onGetRequest, hs', Option.map_some], ?_⟩
  split
  · next hempty =>
    have hnone : ∀ key, (keys.foldl (fun h key => h.cover guid key
        (some (.ofList specificSystems))) h).coverage key guid = none := fun key => by
      have hlookup := (hcovered.clients guid).subscribed key
      rw [Finmap.lookup_eq_none.mpr fun hmem => absurd (hempty ▸ Finmap.mem_keys.mpr hmem)
        (Finset.notMem_empty key)] at hlookup
      exact Option.map_eq_none_iff.mp hlookup.symm
    have hnokeys : keys = [] := List.eq_nil_iff_forall_not_mem.mpr fun key hin => by
      have := hnone key
      rw [coverage_foldl_cover, if_pos ⟨hin, rfl⟩] at this
      cases this
    subst hnokeys
    have hunused : IsUnused (s'.client guid) := by
      refine ⟨Finset.eq_empty_of_forall_notMem fun key hmem => ?_, hempty⟩
      exact hkeys rfl hnone key (((hcovered.clients guid).uploaded key).mp hmem)
    exact ⟨hcovered.lists, hcovered.clients.deleteClient hunused, hcovered.quiet.1,
      hcovered.quiet.2⟩
  · exact ⟨hcovered.lists, hcovered.clients, hcovered.quiet.1, hcovered.quiet.2⟩

theorem onUnsubscribeRequest_spec (guid : Guid) (keys : List Key) (specificSystems : List Guid)
    (hs : s.ListsAgree exact h) (hc : s.ClientsAgree h) :
    ∃ s', s.onUnsubscribeRequest guid keys specificSystems = some s' ∧ Covered exact guid
      (keys.foldl (uncover guid specificSystems) h) s s' := by
  unfold onUnsubscribeRequest
  cases hclient : s.remoteSystems guid with
  | none =>
    have hnone : ∀ key, h.coverage key guid = none := fun key => by
      have hlookup := (hc guid).subscribed key
      unfold client at hlookup
      rw [hclient] at hlookup
      exact Option.map_eq_none_iff.mp (hlookup.symm.trans (Finmap.lookup_empty key))
    rw [foldl_uncover_of_none hnone]
    exact ⟨s, rfl, hs, hc, .refl⟩
  | some c =>
    obtain ⟨s', hs', hcovered⟩ := unsubscribeKeys_spec guid specificSystems keys hs hc
    refine ⟨if IsUnused (s'.client guid) then s'.setClient guid none else s', ?_, ?_⟩
    · dsimp only
      rw [hs', Option.map_some]
    · split
      · next hunused =>
        exact ⟨hcovered.lists, hcovered.clients.deleteClient hunused, hcovered.quiet.1,
          hcovered.quiet.2⟩
      · exact hcovered

theorem onClosedConnection_spec (hs : s.ListsAgree exact h) (hc : s.ClientsAgree h)
    (hcommands : s.commands = []) (hnotifications : s.notifications = 0)
    (hname : exact → ∀ key, h.NotByName guid key) :
    ∃ s', s.onClosedConnection guid = some s' ∧
      Received exact h (.closedConnection guid) s' := by
  unfold onClosedConnection
  cases hclient : s.remoteSystems guid with
  | none =>
    have hview : s.client guid = ⟨∅, ∅, 0⟩ := by
      unfold client
      rw [hclient]
      rfl
    have hposters : ∀ key, guid ∉ h.posters key := fun key hposted => by
      have hmem := ((hc guid).uploaded key).mpr hposted
      rw [hview] at hmem
      exact absurd hmem (Finset.notMem_empty key)
    have hcoverage : ∀ key, h.coverage key guid = none := fun key => by
      have hlookup := (hc guid).subscribed key
      rw [hview] at hlookup
      exact Option.map_eq_none_iff.mp (hlookup.symm.trans (Finmap.lookup_empty key))
    have hrecord : h = h.record (.closedConnection guid) :=
      record_closedConnection h guid [] []
        (fun key hposted => absurd hposted (hposters key))
        fun key hne => absurd (hcoverage key) hne
    refine ⟨s, rfl, received_of_quiet .refl (hrecord ▸ hs) (hrecord ▸ hc)
      (congrArg CloudHistory.posters hrecord.symm)
      (fun n hn => hposters n.key hn.2.2.1) hcommands hnotifications⟩
  | some c =>
    obtain rfl : s.client guid = c := by
      unfold client
      rw [hclient]
      rfl
    have hposted : ∀ key ∈ (s.client guid).uploadedKeys.sort (· ≤ ·), guid ∈ h.posters key :=
      fun key hin => ((hc guid).uploaded key).mp ((Finset.mem_sort _).mp hin)
    obtain ⟨s₁, hs₁, hforgotten, hsame₁⟩ := closeUploads_spec
      (Forgotten.start guid hs hcommands hnotifications) (Finset.sort_nodup _ _) hposted
      fun he key _ => hname he key
    have hkeys : ∀ key ∈ (s.client guid).subscribedKeys.keys.sort (· ≤ ·), ∃ r,
        (((s.client guid).uploadedKeys.sort (· ≤ ·)).foldl (forget guid) h).coverage key guid =
          some r ∧ (s.client guid).subscribedKeys.lookup key = some r.listed := by
      intro key hin
      obtain ⟨systems, hlookup⟩ := Finmap.mem_iff.mp
        (Finmap.mem_keys.mp ((Finset.mem_sort _).mp hin))
      obtain ⟨r, hr, rfl⟩ := Option.map_eq_some_iff.mp
        (((hc guid).subscribed key).symm.trans hlookup)
      exact ⟨r, by rw [coverage_foldl_forget, hr], hlookup⟩
    obtain ⟨s₂, hs₂, hlists, hsame₂, hquiet⟩ := closeSubscriptions_spec
      (c := s.client guid) hforgotten.lists (Finset.sort_nodup _ _) hkeys
    have hrecord := record_closedConnection h guid
      ((s.client guid).uploadedKeys.sort (· ≤ ·))
      ((s.client guid).subscribedKeys.keys.sort (· ≤ ·))
      (fun key hin => (Finset.mem_sort _).mpr (((hc guid).uploaded key).mpr hin))
      fun key hne => by
        refine (Finset.mem_sort _).mpr (Finmap.mem_keys.mpr ?_)
        obtain ⟨r, hr⟩ := Option.ne_none_iff_exists'.mp hne
        exact Finmap.mem_iff.mpr ⟨r.listed, by rw [(hc guid).subscribed, hr, Option.map_some]⟩
    rw [hrecord] at hlists
    have hposters : ∀ key, (((s.client guid).uploadedKeys.sort (· ≤ ·)).foldl (forget guid)
        h).posters key = (h.posters key).erase guid := by
      intro key
      rw [posters_foldl_forget]
      split
      · rfl
      · next hnot =>
        refine (Finset.erase_eq_of_notMem fun hmem => hnot ?_).symm
        exact (Finset.mem_sort _).mpr (((hc guid).uploaded key).mpr hmem)
    refine ⟨s₂.setClient guid none, ?_, hlists, ?_, fun he key => ?_, ?_, fun n => ?_⟩
    · dsimp only
      rw [hs₁, Option.bind_some, hs₂, Option.map_some]
    · have hclients : s₂.ClientsAgree h := fun guid' => by
        unfold client
        rw [hsame₂, hsame₁]
        exact hc guid'
      refine hclients.setClient (r := none) (ClientAgrees.absent (fun key => ?_) fun key => ?_)
        fun guid' c hne hagrees => ⟨fun key => ?_, fun key => ?_, hagrees.uploadedBytes⟩
      · exact Function.update_self _ _ _
      · exact Finset.notMem_erase guid _
      · rw [hagrees.subscribed]
        exact congrArg _ (Function.update_of_ne hne _ _).symm
      · rw [hagrees.uploaded]
        exact (Finset.mem_erase.trans (and_iff_right hne)).symm
    · refine (hquiet.commands key).trans ((hforgotten.commands he key).trans ?_)
      rw [hposters]
      rfl
    · exact hquiet.notifications ▸ hforgotten.nodup
    · change n ∈ s₂.notifications ↔ _
      rw [hquiet.notifications, hforgotten.notified, hposters]
      refine and_congr_right fun _ => and_congr_right fun _ => and_congr_right fun _ => ?_
      exact and_iff_right (Finset.notMem_erase guid _)

/-- What the server does with a message that it is meant for. -/
theorem receive_spec (message : CloudMessage Key Guid) (hs : s.ListsAgree exact h)
    (hc : s.ClientsAgree h) (hcommands : s.commands = []) (hnotifications : s.notifications = 0)
    (haccepts : s.Accepts exact h message) :
    ∃ s', s.receive message = some s' ∧ Received exact h message s' := by
  cases message with
  | post guid key data =>
    obtain ⟨s', hs', hlists, hclients, hcommands', hnotifications'⟩ :=
      onPostRequest_spec data hs hc haccepts
    rw [hnotifications, Multiset.zero_add, ← Multiset.map_add] at hnotifications'
    obtain ⟨hnodup, hmem⟩ := subscribers_spec guid (hs key)
    refine ⟨s', hs', hlists, hclients, fun _ key' => ?_, ?_, fun n => ?_⟩
    · rw [hcommands', hcommands]
      refine iff_of_false List.not_mem_nil fun hboth => hboth.1 ?_
      refine Finset.subset_empty.mp (hboth.2 ▸ fun guid' hin => ?_)
      exact mem_post.mpr (.inr hin)
    · rw [hnotifications']
      exact hnodup.map fun c c' heq => congrArg CloudNotification.subscriber heq
    · rw [hnotifications', Multiset.mem_map]
      constructor
      · intro ⟨c, hc, hn⟩
        subst hn
        exact ⟨rfl, rfl, rfl, (hmem c).mp hc⟩
      · intro ⟨hupdated, huploader, hkey, hcovers⟩
        refine ⟨n.subscriber, (hmem n.subscriber).mpr hcovers, ?_⟩
        cases n
        subst hkey hupdated huploader
        rfl
  | release guid keys =>
    obtain ⟨s', hs', hforgotten, hclients⟩ := onReleaseRequest_spec
      (Forgotten.start guid hs hcommands hnotifications) hc haccepts
    refine ⟨s', hs', hforgotten.lists, hclients, hforgotten.commands, hforgotten.nodup,
      fun n => (hforgotten.notified n).trans ?_⟩
    rw [posters_foldl_forget]
    refine and_congr_right fun _ => and_congr_right fun _ => ?_
    split
    · next hin =>
      rw [and_iff_right (Finset.notMem_erase guid _), and_iff_right hin]
    · next hnot =>
      exact iff_of_false (fun hall => hall.2.1 hall.1) fun hall => hnot hall.1
  | get guid keys specificSystems subscribeToResults =>
    cases subscribeToResults with
    | false =>
      exact ⟨s, rfl, received_of_quiet .refl hs hc rfl (fun _ hdue => hdue) hcommands
        hnotifications⟩
    | true =>
      obtain ⟨hnodup, hkeys⟩ := haccepts rfl
      obtain ⟨s', hs', hcovered⟩ := onGetRequest_spec hs hc hnodup hkeys
      exact ⟨s', hs', received_of_quiet hcovered.quiet hcovered.lists hcovered.clients
        posters_foldl_cover (fun _ hdue => hdue) hcommands hnotifications⟩
  | unsubscribe guid keys specificSystems =>
    obtain ⟨s', hs', hcovered⟩ := onUnsubscribeRequest_spec guid keys specificSystems hs hc
    exact ⟨s', hs', received_of_quiet hcovered.quiet hcovered.lists hcovered.clients
      posters_foldl_uncover (fun _ hdue => hdue) hcommands hnotifications⟩
  | closedConnection guid => exact onClosedConnection_spec hs hc hcommands hnotifications haccepts

end CloudServer

/-! ### Runs -/

/-- A server and what its clients have sent to it; `server` is `none` when the source would have
taken an entry that is missing, or wrapped one of its counters. -/
structure CloudRun (Key Guid : Type) where
  server : Option (CloudServer Key Guid)
  history : CloudHistory Key Guid

namespace CloudRun

open CloudServer

def initial : CloudRun Key Guid := ⟨some .initial, .initial⟩

def perform (w : CloudRun Key Guid) (message : CloudMessage Key Guid) : CloudRun Key Guid where
  server := w.server.bind fun s => { s with notifications := 0, commands := [] }.receive message
  history := w.history.record message

def Accepts (exact : Prop) (w : CloudRun Key Guid) (message : CloudMessage Key Guid) : Prop :=
  ∀ s, w.server = some s → s.Accepts exact w.history message

/-- The states of the runs of messages that the server is meant for. -/
def Reachable (exact : Prop) : CloudRun Key Guid → Prop :=
  GuardedRun.Reachable perform (Accepts exact) initial

/-- The server holds what the messages have said. -/
def Sound (exact : Prop) (w : CloudRun Key Guid) : Prop :=
  ∃ s, w.server = some s ∧ s.ListsAgree exact w.history ∧ s.ClientsAgree w.history

variable {exact : Prop} {w : CloudRun Key Guid} {message : CloudMessage Key Guid}

theorem sound_initial : (initial : CloudRun Key Guid).Sound exact :=
  ⟨_, rfl, fun _ => .allocated rfl fun _ => rfl, fun _ => .absent (fun _ => rfl)
    fun _ => Finset.notMem_empty _⟩

theorem received_perform (hw : w.Sound exact) (haccepts : w.Accepts exact message) :
    ∃ s', (w.perform message).server = some s' ∧ Received exact w.history message s' := by
  obtain ⟨s, hserver, hlists, hclients⟩ := hw
  obtain ⟨s', hs', hreceived⟩ := receive_spec message
    (s := { s with notifications := 0, commands := [] }) hlists hclients rfl rfl
    (by have := haccepts s hserver; cases message <;> exact this)
  exact ⟨s', by rw [perform, hserver, Option.bind_some, hs'], hreceived⟩

theorem sound_perform (hw : w.Sound exact) (haccepts : w.Accepts exact message) :
    (w.perform message).Sound exact := by
  obtain ⟨s', hserver, hreceived⟩ := received_perform hw haccepts
  exact ⟨s', hserver, hreceived.lists, hreceived.clients⟩

theorem Reachable.sound (hw : w.Reachable exact) : w.Sound exact :=
  hw.invariant sound_initial fun _ _ => sound_perform

/-! ### Counters -/

end CloudRun

end SLikeNet
