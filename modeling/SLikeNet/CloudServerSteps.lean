import SLikeNet.CloudSubscriptions

/-! What the messages of the clients of a `CloudServer` mean, and what each part of an operation of
the server keeps of that. -/

namespace SLikeNet

variable {Key Guid : Type} [LinearOrder Key] [LinearOrder Guid]

/-! ### What the messages mean -/

/-- What a client is subscribed to for a key. -/
inductive Coverage (Guid : Type)
  | allSystems
  | systems (listed : Finset Guid) (nonempty : listed.Nonempty)

namespace Coverage

/-- The systems of a message; without any it is for all of them. -/
def ofList (specificSystems : List Guid) : Coverage Guid :=
  if h : specificSystems.toFinset.Nonempty then .systems _ h else .allSystems

def listed : Coverage Guid → Finset Guid
  | allSystems => ∅
  | systems listed _ => listed

/-- What is left of a subscription after an `Unsubscribe`. -/
def without (specificSystems : List Guid) : Coverage Guid → Option (Coverage Guid)
  | allSystems => if specificSystems = [] then none else some .allSystems
  | systems listed _ =>
    if specificSystems = [] then none
    else if h : (listed.filter (· ∉ specificSystems)).Nonempty then some (.systems _ h) else none

def Covers (guid : Guid) : Coverage Guid → Prop
  | allSystems => True
  | systems listed _ => guid ∈ listed

theorem listed_ofList (specificSystems : List Guid) :
    (ofList specificSystems).listed = specificSystems.toFinset := by
  unfold ofList
  split
  · rfl
  · next h => exact (Finset.not_nonempty_iff_eq_empty.mp h).symm

omit [LinearOrder Guid] in
theorem listed_eq_empty {r : Coverage Guid} : r.listed = ∅ ↔ r = .allSystems := by
  cases r with
  | allSystems => exact iff_of_true rfl rfl
  | systems listed h => exact iff_of_false h.ne_empty (fun heq => by cases heq)

omit [LinearOrder Guid] in
theorem covers_iff {r : Coverage Guid} {guid : Guid} :
    r.Covers guid ↔ r.listed = ∅ ∨ guid ∈ r.listed := by
  cases r with
  | allSystems => exact iff_of_true trivial (.inl rfl)
  | systems listed h => exact (or_iff_right h.ne_empty).symm

theorem map_listed_without {r : Coverage Guid} {specificSystems : List Guid} (hne : r.listed ≠ ∅)
    (hall : specificSystems ≠ []) : (r.without specificSystems).map listed =
      if r.listed.filter (· ∉ specificSystems) = ∅ then none
      else some (r.listed.filter (· ∉ specificSystems)) := by
  cases r with
  | allSystems => exact absurd rfl hne
  | systems systems h =>
    change (if specificSystems = [] then none
      else if h : (systems.filter (· ∉ specificSystems)).Nonempty then some (.systems _ h)
      else none : Option (Coverage Guid)).map listed =
        if systems.filter (· ∉ specificSystems) = ∅ then none
        else some (systems.filter (· ∉ specificSystems))
    rw [if_neg hall]
    by_cases hrest : (systems.filter (· ∉ specificSystems)).Nonempty
    · rw [dif_pos hrest, if_neg hrest.ne_empty]
      rfl
    · rw [dif_neg hrest, if_pos (Finset.not_nonempty_iff_eq_empty.mp hrest)]
      rfl

end Coverage

/-- What the clients have posted and are subscribed to, as their messages say. -/
structure CloudHistory (Key Guid : Type) where
  posters : Key → Finset Guid
  contents : Key → Guid → List UInt8
  coverage : Key → Guid → Option (Coverage Guid)

namespace CloudHistory

def initial : CloudHistory Key Guid := ⟨fun _ => ∅, fun _ _ => [], fun _ _ => none⟩

def post (guid : Guid) (key : Key) (data : List UInt8) (h : CloudHistory Key Guid) :
    CloudHistory Key Guid :=
  { h with
    posters := Function.update h.posters key (insert guid (h.posters key))
    contents := Function.update h.contents key (Function.update (h.contents key) guid data) }

def forget (guid : Guid) (h : CloudHistory Key Guid) (key : Key) : CloudHistory Key Guid :=
  { h with posters := Function.update h.posters key ((h.posters key).erase guid) }

def cover (guid : Guid) (key : Key) (r : Option (Coverage Guid)) (h : CloudHistory Key Guid) :
    CloudHistory Key Guid :=
  { h with coverage := Function.update h.coverage key (Function.update (h.coverage key) guid r) }

def uncover (guid : Guid) (specificSystems : List Guid) (h : CloudHistory Key Guid) (key : Key) :
    CloudHistory Key Guid :=
  h.cover guid key ((h.coverage key guid).bind (Coverage.without specificSystems))

def record (h : CloudHistory Key Guid) : CloudMessage Key Guid → CloudHistory Key Guid
  | .post guid key data => h.post guid key data
  | .release guid keys => keys.foldl (forget guid) h
  | .get guid keys specificSystems subscribeToResults =>
    if subscribeToResults then
      keys.foldl (fun h key => h.cover guid key (some (.ofList specificSystems))) h
    else h
  | .unsubscribe guid keys specificSystems => keys.foldl (uncover guid specificSystems) h
  | .closedConnection guid =>
    { h with
      posters := fun key => (h.posters key).erase guid
      coverage := fun key => Function.update (h.coverage key) guid none }

variable {h h' : CloudHistory Key Guid} {guid : Guid}

theorem forget_of_notMem {key : Key} (hmem : guid ∉ h.posters key) : h.forget guid key = h := by
  unfold forget
  rw [Finset.erase_eq_of_notMem hmem, Function.update_eq_self]

theorem foldl_forget_of_notMem {keys : List Key} (hmem : ∀ key, guid ∉ h.posters key) :
    keys.foldl (forget guid) h = h := by
  induction keys with
  | nil => rfl
  | cons key keys ih => rw [List.foldl_cons, forget_of_notMem (hmem key), ih]

/-- What the list of a key is to hold. -/
def Holds (exact : Prop) (h : CloudHistory Key Guid) (key : Key) (l : CloudDataList Guid) : Prop :=
  l.Agrees exact (h.posters key) (h.contents key) fun c => (h.coverage key c).map Coverage.listed

/-- Two histories say the same of a key. -/
def SameAt (key : Key) (h h' : CloudHistory Key Guid) : Prop :=
  h'.posters key = h.posters key ∧ h'.contents key = h.contents key ∧
    h'.coverage key = h.coverage key

omit [LinearOrder Key] in
theorem Holds.congr {exact : Prop} {key : Key} {l : CloudDataList Guid} (hl : h.Holds exact key l)
    (hsame : SameAt key h h') : h'.Holds exact key l := by
  unfold Holds
  rw [hsame.1, hsame.2.1, hsame.2.2]
  exact hl

theorem sameAt_post {key key' : Key} {data : List UInt8} (hne : key' ≠ key) :
    SameAt key' h (h.post guid key data) :=
  ⟨Function.update_of_ne hne _ _, Function.update_of_ne hne _ _, rfl⟩

theorem posters_post {key : Key} {data : List UInt8} : (h.post guid key data).posters =
    Function.update h.posters key (insert guid (h.posters key)) := rfl

theorem contents_post_eq {key : Key} {data : List UInt8} : (h.post guid key data).contents =
    Function.update h.contents key (Function.update (h.contents key) guid data) := rfl

theorem posters_forget {key : Key} : (h.forget guid key).posters =
    Function.update h.posters key ((h.posters key).erase guid) := rfl

theorem mem_post {guid' : Guid} {key key' : Key} {data : List UInt8} :
    guid' ∈ (h.post guid key data).posters key' ↔
      (guid' = guid ∧ key' = key) ∨ guid' ∈ h.posters key' := by
  rw [posters_post, Function.update_apply]
  split
  · next heq =>
    rw [Finset.mem_insert, heq]
    exact or_congr_left (and_iff_left rfl).symm
  · next hne => exact (or_iff_right fun heq => hne heq.2).symm

theorem contents_post {guid' : Guid} {key key' : Key} {data : List UInt8} :
    (h.post guid key data).contents key' guid' =
      if guid' = guid ∧ key' = key then data else h.contents key' guid' := by
  rw [contents_post_eq, Function.update_apply]
  by_cases hkey : key' = key
  · rw [if_pos hkey, Function.update_apply, hkey]
    simp only [and_true]
  · rw [if_neg hkey, if_neg fun heq => hkey heq.2]

theorem sameAt_forget {key key' : Key} (hne : key' ≠ key) : SameAt key' h (h.forget guid key) :=
  ⟨Function.update_of_ne hne _ _, rfl, rfl⟩

theorem sameAt_cover {key key' : Key} {r : Option (Coverage Guid)} (hne : key' ≠ key) :
    SameAt key' h (h.cover guid key r) :=
  ⟨rfl, rfl, Function.update_of_ne hne _ _⟩

theorem coverage_cover_eq (h : CloudHistory Key Guid) (guid : Guid) (key : Key)
    (r : Option (Coverage Guid)) : (h.cover guid key r).coverage =
      Function.update h.coverage key (Function.update (h.coverage key) guid r) := rfl

theorem cover_self (h : CloudHistory Key Guid) (guid : Guid) (key : Key) :
    h.cover guid key (h.coverage key guid) = h := by
  unfold cover
  rw [Function.update_eq_self, Function.update_eq_self]

theorem coverage_cover_self (h : CloudHistory Key Guid) (guid : Guid) (key : Key)
    (r : Option (Coverage Guid)) : (h.cover guid key r).coverage key guid = r := by
  rw [coverage_cover_eq, Function.update_self, Function.update_self]

theorem cover_cover (h : CloudHistory Key Guid) (guid : Guid) (key : Key)
    (r r' : Option (Coverage Guid)) : (h.cover guid key r).cover guid key r' =
      h.cover guid key r' := by
  unfold cover
  dsimp only
  rw [Function.update_self, Function.update_idem, Function.update_idem]

theorem coverage_cover (h : CloudHistory Key Guid) (guid : Guid) (key : Key)
    (r : Option (Coverage Guid)) :
    (fun c => ((h.cover guid key r).coverage key c).map Coverage.listed) =
      Function.update (fun c => (h.coverage key c).map Coverage.listed) guid
        (r.map Coverage.listed) := by
  funext c
  rw [coverage_cover_eq, Function.update_self, Function.update_apply, Function.update_apply]
  split
  · rfl
  · rfl

/-- No client is subscribed to `guid` by its name where it is the last that has posted the key. -/
def NotByName (h : CloudHistory Key Guid) (guid : Guid) (key : Key) : Prop :=
  h.posters key = {guid} → ∀ c r, h.coverage key c = some r → guid ∉ r.listed

end CloudHistory

namespace CloudServer

open CloudHistory

variable {s s' : CloudServer Key Guid} {h h₀ : CloudHistory Key Guid} {guid : Guid} {key : Key}
  {exact : Prop}

omit [LinearOrder Guid] in
theorem dataRepository_setList {l : Option (CloudDataList Guid)} :
    (s.setList key l).dataRepository = Function.update s.dataRepository key l := rfl

omit [LinearOrder Key] in
theorem remoteSystems_setClient {c : Option (RemoteCloudClient Key Guid)} :
    (s.setClient guid c).remoteSystems = Function.update s.remoteSystems guid c := rfl

omit [LinearOrder Guid] in
theorem getOrAllocate_setList {l : Option (CloudDataList Guid)} {key' : Key} :
    (s.setList key l).getOrAllocateCloudDataList key' =
      if key' = key then l.getD .allocated else s.getOrAllocateCloudDataList key' := by
  unfold getOrAllocateCloudDataList
  rw [dataRepository_setList, Function.update_apply]
  split
  · rfl
  · rfl

omit [LinearOrder Key] in
theorem client_setClient {c : Option (RemoteCloudClient Key Guid)} {guid' : Guid} :
    (s.setClient guid c).client guid' =
      if guid' = guid then c.getD ⟨∅, ∅, 0⟩ else s.client guid' := by
  unfold client
  rw [remoteSystems_setClient, Function.update_apply]
  split
  · rfl
  · rfl

/-- The lists of the server hold what the history says. -/
def ListsAgree (exact : Prop) (h : CloudHistory Key Guid) (s : CloudServer Key Guid) : Prop :=
  ∀ key, h.Holds exact key (s.getOrAllocateCloudDataList key)

theorem ListsAgree.setList {h' : CloudHistory Key Guid} {l : Option (CloudDataList Guid)}
    (hs : s.ListsAgree exact h) (hl : h'.Holds exact key (l.getD .allocated))
    (hsame : ∀ key', key' ≠ key → SameAt key' h h') : (s.setList key l).ListsAgree exact h' := by
  intro key'
  rw [getOrAllocate_setList]
  split
  · next heq => exact heq ▸ hl
  · next hne => exact (hs key').congr (hsame key' hne)

/-- The record of a client is what the history says. -/
structure ClientAgrees (h : CloudHistory Key Guid) (guid : Guid)
    (c : RemoteCloudClient Key Guid) : Prop where
  subscribed : ∀ key, c.subscribedKeys.lookup key = (h.coverage key guid).map Coverage.listed
  uploaded : ∀ key, key ∈ c.uploadedKeys ↔ guid ∈ h.posters key
  uploadedBytes : c.uploadedBytes = ∑ key ∈ c.uploadedKeys, (h.contents key guid).length

def ClientsAgree (h : CloudHistory Key Guid) (s : CloudServer Key Guid) : Prop :=
  ∀ guid, ClientAgrees h guid (s.client guid)

omit [LinearOrder Guid] in
theorem ClientAgrees.absent (hcoverage : ∀ key, h.coverage key guid = none)
    (hposters : ∀ key, guid ∉ h.posters key) : ClientAgrees h guid ⟨∅, ∅, 0⟩ where
  subscribed key := by
    rw [hcoverage key]
    exact Finmap.lookup_empty key
  uploaded key := iff_of_false (Finset.notMem_empty key) (hposters key)
  uploadedBytes := rfl

omit [LinearOrder Guid] in
theorem ClientAgrees.kept {c : RemoteCloudClient Key Guid} (hc : ClientAgrees h guid c) :
    ClientAgrees h guid ((if IsUnused c then none else some c).getD ⟨∅, ∅, 0⟩) := by
  split
  · next hunused =>
    refine ⟨fun key => ?_, fun key => ?_, rfl⟩
    · have hnone : c.subscribedKeys.lookup key = none := Finmap.lookup_eq_none.mpr fun hmem =>
        absurd (hunused.2 ▸ Finmap.mem_keys.mpr hmem) (Finset.notMem_empty key)
      rw [← hc.subscribed key, hnone]
      exact Finmap.lookup_empty key
    · rw [← hc.uploaded key, hunused.1]
      exact Iff.rfl
  · exact hc

theorem ClientsAgree.setClient {h' : CloudHistory Key Guid}
    {r : Option (RemoteCloudClient Key Guid)} (hs : s.ClientsAgree h)
    (hr : ClientAgrees h' guid (r.getD ⟨∅, ∅, 0⟩))
    (hother : ∀ guid' c, guid' ≠ guid → ClientAgrees h guid' c → ClientAgrees h' guid' c) :
    (s.setClient guid r).ClientsAgree h' := by
  intro guid'
  rw [client_setClient]
  split
  · next heq => exact heq ▸ hr
  · next hne => exact hother guid' _ hne (hs guid')

/-- Nothing is sent but about the subscriptions of the server itself. -/
structure Quiet (s s' : CloudServer Key Guid) : Prop where
  notifications : s'.notifications = s.notifications
  commands : ∀ key, .removeUploadedKey key ∈ s'.commands ↔ .removeUploadedKey key ∈ s.commands

namespace Quiet

variable {s'' : CloudServer Key Guid}

omit [LinearOrder Key] [LinearOrder Guid] in
theorem refl : Quiet s s := ⟨rfl, fun _ => Iff.rfl⟩

omit [LinearOrder Key] [LinearOrder Guid] in
theorem trans (h : Quiet s s') (h' : Quiet s' s'') : Quiet s s'' :=
  ⟨h'.notifications.trans h.notifications, fun key => (h'.commands key).trans (h.commands key)⟩

end Quiet

/-! ### Uploads -/

theorem sum_insert_erase {K : Finset Key} {f f' : Key → ℕ} (hother : ∀ k, k ≠ key → f' k = f k) :
    ∑ k ∈ insert key K, f' k = f' key + ∑ k ∈ K.erase key, f k := by
  have hinsert : insert key K = insert key (K.erase key) := by
    ext k
    rw [Finset.mem_insert, Finset.mem_insert, Finset.mem_erase]
    grind
  rw [hinsert, Finset.sum_insert (Finset.notMem_erase key K)]
  congr 1
  exact Finset.sum_congr rfl fun k hk => hother k (Finset.ne_of_mem_erase hk)

theorem subtract_of_le {n m : ℕ} (hle : m ≤ n) : subtract n m = some (n - m) := if_pos hle

theorem length_le_uploadedBytes (hs : s.ListsAgree exact h) (hc : s.ClientsAgree h)
    {d : CloudData Guid}
    (hlookup : (s.getOrAllocateCloudDataList key).keyData.lookup guid = some d)
    (hup : d.isUploaded = true) :
    key ∈ (s.client guid).uploadedKeys ∧ d.data = h.contents key guid ∧
      d.data.length ≤ (s.client guid).uploadedBytes := by
  have hposted := ((hs key).mem_posters hlookup).mpr hup
  obtain ⟨d', hd', -, hdata⟩ := (hs key).lookup hposted
  obtain rfl : d' = d := Option.some.inj (hd'.symm.trans hlookup)
  have hmem := ((hc guid).uploaded key).mpr hposted
  refine ⟨hmem, hdata, ?_⟩
  rw [hdata, (hc guid).uploadedBytes,
    ← Finset.add_sum_erase _ (fun key => (h.contents key guid).length) hmem]
  exact Nat.le_add_right _ _

theorem onPostRequest_spec (data : List UInt8) (hs : s.ListsAgree exact h)
    (hc : s.ClientsAgree h)
    (hplaced : ∀ d, (s.getOrAllocateCloudDataList key).keyData.lookup guid = some d →
      ¬exact ∧ d.isUploaded = true) :
    ∃ s', s.onPostRequest guid key data = some s' ∧
      s'.ListsAgree exact (h.post guid key data) ∧ s'.ClientsAgree (h.post guid key data) ∧
      (∀ key', .removeUploadedKey key' ∈ s'.commands ↔ .removeUploadedKey key' ∈ s.commands) ∧
      s'.notifications = s.notifications +
        ((s.getOrAllocateCloudDataList key).specific guid).val.map (⟨·, key, guid, true⟩) +
        (s.getOrAllocateCloudDataList key).nonSpecificSubscribers.val.map
          (⟨·, key, guid, true⟩) := by
  have hother : ∀ key', key' ≠ key →
      ((h.post guid key data).contents key' guid).length = (h.contents key' guid).length :=
    fun key' hne => by rw [(sameAt_post hne).2.1]
  have hself : (h.post guid key data).contents key guid = data := by
    unfold CloudHistory.post
    simp only [Function.update_self]
  have hbytes : ∃ bytes, subtract (s.client guid).uploadedBytes
      (((s.getOrAllocateCloudDataList key).keyData.lookup guid).elim 0 fun d => d.data.length) =
        some bytes ∧ bytes + data.length =
          ∑ k ∈ insert key (s.client guid).uploadedKeys,
            ((h.post guid key data).contents k guid).length := by
    rw [sum_insert_erase hother, hself]
    cases hlookup : (s.getOrAllocateCloudDataList key).keyData.lookup guid with
    | none =>
      refine ⟨_, subtract_of_le (Nat.zero_le _), ?_⟩
      have hnew : key ∉ (s.client guid).uploadedKeys := fun hmem => by
        obtain ⟨d, hd, -⟩ := (hs key).lookup (((hc guid).uploaded key).mp hmem)
        exact absurd (hlookup.symm.trans hd) (by simp)
      rw [Finset.erase_eq_of_notMem hnew, ← (hc guid).uploadedBytes, Nat.add_comm]
      rfl
    | some d =>
      obtain ⟨hmem, hdata, hle⟩ := length_le_uploadedBytes hs hc hlookup (hplaced d hlookup).2
      refine ⟨_, subtract_of_le hle, ?_⟩
      have hsum := Finset.add_sum_erase _ (fun k => (h.contents k guid).length) hmem
      rw [← (hc guid).uploadedBytes, ← hdata] at hsum
      change _ - d.data.length + _ = _
      omega
  obtain ⟨bytes, hbytes, hsum⟩ := hbytes
  refine ⟨_, by rw [onPostRequest, hbytes, Option.map_some], ?_, ?_, fun key' => ?_, ?_⟩
  · have hlist := (hs key).post data hplaced
    have hholds : (h.post guid key data).Holds exact key
        ({ s.getOrAllocateCloudDataList key with
          uploaderCount := (s.getOrAllocateCloudDataList key).uploaderCount + 1 }.setData guid
          (((s.getOrAllocateCloudDataList key).keyData.lookup guid).elim ⟨data, true, ∅⟩
            fun d => { d with data := data })) := by
      unfold CloudHistory.Holds CloudHistory.post
      simp only [Function.update_self]
      exact hlist
    exact fun key' => (hs.setList (l := some _) hholds fun key' hne => sameAt_post hne) key'
  · have hclient : ClientAgrees (h.post guid key data) guid { s.client guid with
        uploadedKeys := insert key (s.client guid).uploadedKeys
        uploadedBytes := bytes + data.length } := by
      refine ⟨(hc guid).subscribed, fun key' => ?_, hsum⟩
      rw [Finset.mem_insert, (hc guid).uploaded, CloudHistory.mem_post]
      exact ⟨fun hor => hor.imp (⟨rfl, ·⟩) id, fun hor => hor.imp (·.2) id⟩
    refine fun guid' => (hc.setClient (r := some _) hclient
      fun guid' c hne hagrees => ⟨hagrees.subscribed, fun key' => ?_, ?_⟩) guid'
    · rw [hagrees.uploaded, CloudHistory.mem_post]
      exact ⟨.inr, fun hor => hor.resolve_left fun heq => hne heq.1⟩
    · rw [hagrees.uploadedBytes]
      refine Finset.sum_congr rfl fun key' _ => ?_
      rw [CloudHistory.contents_post, if_neg fun heq => hne heq.1]
  · change _ ∈ s.commands ++ _ ↔ _
    rw [List.mem_append]
    refine or_iff_left ?_
    split
    · exact List.not_mem_nil
    · exact fun hmem => by cases List.mem_singleton.mp hmem
  · change s.notifications + Multiset.map _ _ = _
    rw [Multiset.map_add, ← Multiset.add_assoc]
    congr 3
    unfold CloudDataList.specific
    cases (s.getOrAllocateCloudDataList key).keyData.lookup guid with
    | none => rfl
    | some d => rfl

/-! ### Uploads that end -/

omit [LinearOrder Key] in
theorem subscribers_spec (guid : Guid) {l : CloudDataList Guid} (hl : h.Holds exact key l) :
    ((l.specific guid).val + l.nonSpecificSubscribers.val).Nodup ∧
      ∀ c, c ∈ (l.specific guid).val + l.nonSpecificSubscribers.val ↔
        ∃ r, h.coverage key c = some r ∧ r.Covers guid := by
  have hnonSpecific : ∀ c, c ∈ l.nonSpecificSubscribers ↔
      ∃ r, h.coverage key c = some r ∧ r.listed = ∅ := fun c => by
    rw [hl.nonSpecific, Option.map_eq_some_iff]
  have hspecific : ∀ c, c ∈ l.specific guid ↔
      ∃ r, h.coverage key c = some r ∧ guid ∈ r.listed := fun c => by
    rw [hl.specific]
    constructor
    · intro ⟨systems, hsome, hmem⟩
      obtain ⟨r, hr, rfl⟩ := Option.map_eq_some_iff.mp hsome
      exact ⟨r, hr, hmem⟩
    · intro ⟨r, hr, hmem⟩
      exact ⟨r.listed, by rw [hr, Option.map_some], hmem⟩
  refine ⟨Multiset.nodup_add.mpr ⟨Finset.nodup _, Finset.nodup _, ?_⟩, fun c => ?_⟩
  · refine Multiset.disjoint_left.mpr fun {c} hc hc' => ?_
    obtain ⟨r, hr, hmem⟩ := (hspecific c).mp hc
    obtain ⟨r', hr', hempty⟩ := (hnonSpecific c).mp hc'
    obtain rfl : r = r' := Option.some.inj (hr.symm.trans hr')
    exact absurd (hempty ▸ hmem) (Finset.notMem_empty guid)
  · rw [Multiset.mem_add, Finset.mem_val, Finset.mem_val, hspecific, hnonSpecific,
      ← exists_or]
    refine exists_congr fun r => ?_
    rw [← and_or_left, Coverage.covers_iff, or_comm]

/-- Some of the keys that `guid` had posted in `h₀` have been forgotten, with what is to be sent
for each. -/
structure Forgotten (exact : Prop) (guid : Guid) (h₀ h : CloudHistory Key Guid)
    (s : CloudServer Key Guid) : Prop where
  lists : s.ListsAgree exact h
  posters : ∀ key, h.posters key = h₀.posters key ∨ h.posters key = (h₀.posters key).erase guid
  coverage : h.coverage = h₀.coverage
  commands : exact → ∀ key, .removeUploadedKey key ∈ s.commands ↔
    h₀.posters key ≠ ∅ ∧ h.posters key = ∅
  nodup : s.notifications.Nodup
  notified : ∀ n, n ∈ s.notifications ↔ n.wasUpdated = false ∧ n.uploader = guid ∧
    guid ∈ h₀.posters n.key ∧ guid ∉ h.posters n.key ∧
    ∃ r, h₀.coverage n.key n.subscriber = some r ∧ r.Covers guid

omit [LinearOrder Key] in
theorem Forgotten.start (guid : Guid) (hs : s.ListsAgree exact h) (hcommands : s.commands = [])
    (hnotifications : s.notifications = 0) : Forgotten exact guid h h s where
  lists := hs
  posters _ := .inl rfl
  coverage := rfl
  commands _ key := by
    rw [hcommands]
    exact iff_of_false List.not_mem_nil fun hboth => hboth.1 hboth.2
  nodup := hnotifications ▸ Multiset.nodup_zero
  notified n := by
    rw [hnotifications]
    exact iff_of_false (Multiset.notMem_zero n) fun hall => hall.2.2.2.1 hall.2.2.1

theorem mem_commands_clearData {closed : Bool} {d : CloudData Guid} {l : CloudDataList Guid}
    {key' : Key} : .removeUploadedKey key' ∈ (s.clearData closed guid key d l).commands ↔
      .removeUploadedKey key' ∈ s.commands ∨ (key' = key ∧ d.clear.IsUnused ∧
        ((l.removeData guid).IsNotUploaded ∨ closed = true ∧ (l.removeData guid).IsUnused)) := by
  have hone : ServerCommand.removeUploadedKey key' ∈ [ServerCommand.removeUploadedKey key] ↔
      key' = key := by
    rw [List.mem_singleton, ServerCommand.removeUploadedKey.injEq]
  unfold clearData
  by_cases hunused : d.clear.IsUnused
  · simp only [if_pos hunused]
    by_cases hcount : (l.removeData guid).IsNotUploaded <;>
      by_cases hclosed : closed = true ∧ (l.removeData guid).IsUnused
    · simp only [if_pos hcount, if_pos hclosed]
      change _ ∈ (s.commands ++ _) ++ _ ↔ _
      rw [List.mem_append, List.mem_append, hone]
      grind
    · simp only [if_pos hcount, if_neg hclosed]
      change _ ∈ s.commands ++ _ ↔ _
      rw [List.mem_append, hone]
      grind
    · simp only [if_neg hcount, if_pos hclosed]
      change _ ∈ s.commands ++ _ ↔ _
      rw [List.mem_append, hone]
      grind
    · simp only [if_neg hcount, if_neg hclosed]
      exact (or_iff_left fun hall => hall.2.2.elim hcount hclosed).symm
  · simp only [if_neg hunused]
    exact (or_iff_left fun hall => hunused hall.2.1).symm

theorem notifications_clearData {closed : Bool} {d : CloudData Guid} {l : CloudDataList Guid} :
    (s.clearData closed guid key d l).notifications = s.notifications +
      (d.specificSubscribers.val + l.nonSpecificSubscribers.val).map
        (⟨·, key, guid, false⟩) := by
  unfold clearData
  split
  · dsimp only
    split <;> split <;> rfl
  · rfl

theorem remoteSystems_clearData {closed : Bool} {d : CloudData Guid} {l : CloudDataList Guid} :
    (s.clearData closed guid key d l).remoteSystems = s.remoteSystems := by
  unfold clearData
  split
  · dsimp only
    split <;> split <;> rfl
  · rfl

theorem getOrAllocate_clearData {closed : Bool} {d : CloudData Guid} {l : CloudDataList Guid}
    {key' : Key} : (s.clearData closed guid key d l).getOrAllocateCloudDataList key' =
      (s.setList key (if d.clear.IsUnused then (l.removeData guid).kept
        else some (l.setData guid d.clear))).getOrAllocateCloudDataList key' := by
  unfold clearData
  split
  · dsimp only
    split <;> split <;> rfl
  · rfl

omit [LinearOrder Key] in
theorem dataRepository_of_lookup {d : CloudData Guid}
    (hlookup : (s.getOrAllocateCloudDataList key).keyData.lookup guid = some d) :
    s.dataRepository key = some (s.getOrAllocateCloudDataList key) := by
  unfold getOrAllocateCloudDataList at hlookup ⊢
  cases hl : s.dataRepository key with
  | none =>
    rw [hl] at hlookup
    exact absurd ((Finmap.lookup_empty guid).symm.trans hlookup) (by simp)
  | some l => rfl

theorem clearData_spec (closed : Bool) {d : CloudData Guid}
    (hs : Forgotten exact guid h₀ h s) (hposted : guid ∈ h.posters key)
    (hlookup : (s.getOrAllocateCloudDataList key).keyData.lookup guid = some d)
    (hname : exact → h₀.NotByName guid key) :
    ∃ count, subtract (s.getOrAllocateCloudDataList key).uploaderCount 1 = some count ∧
      Forgotten exact guid h₀ (h.forget guid key) (s.clearData closed guid key d
        { s.getOrAllocateCloudDataList key with uploaderCount := count }) := by
  have hposters₀ : h₀.posters key = h.posters key :=
    ((hs.posters key).resolve_right fun heq =>
      Finset.notMem_erase guid _ (heq ▸ hposted)).symm
  obtain ⟨count, hcount, hcounts, hagrees⟩ := (hs.lists key).clear hposted hlookup
  have hspecific := CloudDataList.specific_some hlookup
  obtain ⟨hnodup, hmem⟩ := subscribers_spec guid (hs.lists key)
  refine ⟨count, hcount, fun key' => ?_, fun key' => ?_, hs.coverage, fun he key' => ?_, ?_,
    fun n => ?_⟩
  · have hholds : (h.forget guid key).Holds exact key ((if d.clear.IsUnused then
        ({ s.getOrAllocateCloudDataList key with uploaderCount := count }.removeData guid).kept
        else some ({ s.getOrAllocateCloudDataList key with
          uploaderCount := count }.setData guid d.clear)).getD .allocated) := by
      unfold CloudHistory.Holds
      rw [CloudHistory.posters_forget, Function.update_self]
      by_cases hunused : d.clear.IsUnused
      · rw [if_pos hunused] at hagrees ⊢
        exact hagrees.kept
      · rw [if_neg hunused] at hagrees ⊢
        exact hagrees
    rw [getOrAllocate_clearData]
    exact hs.lists.setList hholds (fun key' hne => sameAt_forget hne) key'
  · rw [CloudHistory.posters_forget, Function.update_apply]
    split
    · next heq => exact .inr (by rw [heq, hposters₀])
    · exact hs.posters key'
  · rw [mem_commands_clearData, CloudHistory.posters_forget, Function.update_apply, hs.commands he]
    by_cases heq : key' = key
    · rw [if_pos heq, heq, hposters₀]
      have hne : h.posters key ≠ ∅ := Finset.ne_empty_of_mem hposted
      have hcount : count = ((h.posters key).erase guid).card := hcounts.2 he
      constructor
      · intro hor
        refine ⟨hne, ?_⟩
        obtain ⟨-, hunused, hzero | ⟨-, hlist⟩⟩ := hor.resolve_left fun hboth => hne hboth.2
        · exact Finset.card_eq_zero.mp (hcount.symm.trans hzero)
        · rw [if_pos hunused] at hagrees
          exact (hagrees.of_unused hlist).1
      · intro ⟨_, hempty⟩
        have hsingle : h₀.posters key = {guid} := by
          rw [hposters₀]
          exact (Finset.erase_eq_empty_iff _ _).mp hempty |>.resolve_left hne
        have hnone : d.specificSubscribers = ∅ := by
          refine Finset.eq_empty_of_forall_notMem fun c hc => ?_
          obtain ⟨systems, hsome, hin⟩ := ((hs.lists key).specific c guid).mp (hspecific ▸ hc)
          obtain ⟨r, hr, rfl⟩ := Option.map_eq_some_iff.mp hsome
          exact hname he hsingle c r (hs.coverage ▸ hr) hin
        exact .inr ⟨rfl, ⟨rfl, hnone⟩, .inl (hcount.trans (Finset.card_eq_zero.mpr hempty))⟩
    · rw [if_neg heq]
      exact or_iff_left fun hall => heq hall.1
  · rw [notifications_clearData, Multiset.nodup_add]
    refine ⟨hs.nodup, ?_, Multiset.disjoint_left.mpr fun {n} hn hn' => ?_⟩
    · rw [← hspecific]
      exact hnodup.map fun c c' heq => congrArg CloudNotification.subscriber heq
    · obtain ⟨c, -, rfl⟩ := Multiset.mem_map.mp hn'
      exact ((hs.notified _).mp hn).2.2.2.1 hposted
  · rw [notifications_clearData, Multiset.mem_add, hs.notified, Multiset.mem_map,
      CloudHistory.posters_forget, Function.update_apply, ← hspecific]
    by_cases heq : n.key = key
    · rw [if_pos heq, heq, hposters₀]
      constructor
      · intro hor
        obtain ⟨c, hc, rfl⟩ := hor.resolve_left fun hall => hall.2.2.2.1 hposted
        exact ⟨rfl, rfl, hposted, Finset.notMem_erase guid _, hs.coverage ▸ (hmem c).mp hc⟩
      · intro ⟨hupdated, huploader, _, _, hcovers⟩
        refine .inr ⟨n.subscriber, (hmem n.subscriber).mpr (hs.coverage ▸ hcovers), ?_⟩
        cases n
        subst heq hupdated huploader
        rfl
    · rw [if_neg heq]
      refine or_iff_left fun ⟨c, _, hn⟩ => heq ?_
      rw [← hn]

theorem contents_foldl_forget {keys : List Key} :
    (keys.foldl (forget guid) h).contents = h.contents := by
  induction keys generalizing h with
  | nil => rfl
  | cons key keys ih => exact ih

theorem releaseKey_spec (hs : Forgotten exact guid h₀ h s) (hc : s.ClientsAgree h)
    (hmem : key ∈ (s.client guid).uploadedKeys) (hname : exact → h₀.NotByName guid key) :
    ∃ s', s.releaseKey guid key (s.client guid) = some s' ∧
      Forgotten exact guid h₀ (h.forget guid key) s' ∧ s'.ClientsAgree (h.forget guid key) := by
  have hposted := ((hc guid).uploaded key).mp hmem
  obtain ⟨d, hlookup, -, hdata⟩ := (hs.lists key).lookup hposted
  obtain ⟨count, hcount, hforgotten⟩ := clearData_spec false hs hposted hlookup hname
  have hsum := Finset.add_sum_erase _ (fun k => (h.contents k guid).length) hmem
  rw [← (hc guid).uploadedBytes, ← hdata] at hsum
  have hbytes := subtract_of_le (n := (s.client guid).uploadedBytes) (m := d.data.length) (by omega)
  refine ⟨_, by rw [releaseKey, dataRepository_of_lookup hlookup, Option.bind_some, hlookup,
    Option.bind_some, hbytes, Option.bind_some, hcount, Option.map_some], ?_, ?_⟩
  · exact ⟨hforgotten.lists, hforgotten.posters, hforgotten.coverage, hforgotten.commands,
      hforgotten.nodup, hforgotten.notified⟩
  · have hclients : (s.clearData false guid key d { s.getOrAllocateCloudDataList key with
        uploaderCount := count }).ClientsAgree h := fun guid' => by
      unfold client
      rw [remoteSystems_clearData]
      exact hc guid'
    refine hclients.setClient (ClientAgrees.kept ⟨(hc guid).subscribed, fun key' => ?_, ?_⟩)
      fun guid' c hne hagrees => ⟨hagrees.subscribed, fun key' => ?_, hagrees.uploadedBytes⟩
    · change key' ∈ (s.client guid).uploadedKeys.erase key ↔ _
      rw [Finset.mem_erase, (hc guid).uploaded, posters_forget, Function.update_apply]
      split
      · next heq => exact iff_of_false (fun hboth => hboth.1 heq) (Finset.notMem_erase guid _)
      · next hne => exact and_iff_right hne
    · change _ - d.data.length = ∑ k ∈ (s.client guid).uploadedKeys.erase key, _
      change d.data.length + ∑ k ∈ (s.client guid).uploadedKeys.erase key,
        (h.contents k guid).length = _ at hsum
      change _ = ∑ k ∈ (s.client guid).uploadedKeys.erase key, (h.contents k guid).length
      omega
    · rw [hagrees.uploaded, posters_forget, Function.update_apply]
      split
      · next heq => rw [heq, Finset.mem_erase, and_iff_right hne]
      · rfl

theorem onReleaseRequest_spec {keys : List Key} (hs : Forgotten exact guid h₀ h s)
    (hc : s.ClientsAgree h) (hname : exact → ∀ key ∈ keys, h₀.NotByName guid key) :
    ∃ s', s.onReleaseRequest guid keys = some s' ∧
      Forgotten exact guid h₀ (keys.foldl (forget guid) h) s' ∧
      s'.ClientsAgree (keys.foldl (forget guid) h) := by
  induction keys generalizing s h with
  | nil => exact ⟨s, rfl, hs, hc⟩
  | cons key keys ih =>
    unfold onReleaseRequest
    cases hclient : s.remoteSystems guid with
    | none =>
      have hnone : ∀ key, guid ∉ h.posters key := fun key hposted => by
        have hmem := ((hc guid).uploaded key).mpr hposted
        unfold client at hmem
        rw [hclient] at hmem
        exact absurd hmem (Finset.notMem_empty key)
      rw [foldl_forget_of_notMem hnone]
      exact ⟨s, rfl, hs, hc⟩
    | some c =>
      obtain rfl : s.client guid = c := by
        unfold client
        rw [hclient]
        rfl
      dsimp only
      by_cases hmem : key ∈ (s.client guid).uploadedKeys
      · obtain ⟨s₁, hs₁, hforgotten, hclients⟩ := releaseKey_spec hs hc hmem
          fun he => hname he key List.mem_cons_self
        rw [if_pos hmem, hs₁, Option.bind_some]
        exact ih hforgotten hclients fun he key' hin => hname he key' (List.mem_cons_of_mem _ hin)
      · rw [if_neg hmem, List.foldl_cons,
          forget_of_notMem fun hposted => hmem (((hc guid).uploaded key).mpr hposted)]
        exact ih hs hc fun he key' hin => hname he key' (List.mem_cons_of_mem _ hin)

theorem closeUploads_spec {keys : List Key} (hs : Forgotten exact guid h₀ h s)
    (hnodup : keys.Nodup) (hposted : ∀ key ∈ keys, guid ∈ h.posters key)
    (hname : exact → ∀ key ∈ keys, h₀.NotByName guid key) :
    ∃ s', s.closeUploads guid keys = some s' ∧
      Forgotten exact guid h₀ (keys.foldl (forget guid) h) s' ∧
      s'.remoteSystems = s.remoteSystems := by
  induction keys generalizing s h with
  | nil => exact ⟨s, rfl, hs, rfl⟩
  | cons key keys ih =>
    rw [List.nodup_cons] at hnodup
    have hfirst := hposted key List.mem_cons_self
    obtain ⟨d, hlookup, -, -⟩ := (hs.lists key).lookup hfirst
    obtain ⟨count, hcount, hforgotten⟩ := clearData_spec true hs hfirst hlookup
      fun he => hname he key List.mem_cons_self
    obtain ⟨s', hs', hrest, hsame⟩ := ih hforgotten hnodup.2 (fun key' hin => by
      have hne : key' ≠ key := fun heq => hnodup.1 (heq ▸ hin)
      rw [posters_forget, Function.update_of_ne hne]
      exact hposted key' (List.mem_cons_of_mem _ hin))
      fun he key' hin => hname he key' (List.mem_cons_of_mem _ hin)
    refine ⟨s', ?_, hrest, hsame.trans remoteSystems_clearData⟩
    simp only [closeUploads, dataRepository_of_lookup hlookup, hlookup, hcount, Option.bind_some,
      hs']

/-! ### Subscriptions -/

theorem lookup_ite_erase {m : Finmap fun _ : Key => Finset Guid} {systems : Finset Guid}
    {key' : Key} : (if systems = ∅ then m.erase key else m.insert key systems).lookup key' =
      if key' = key then (if systems = ∅ then none else some systems) else m.lookup key' := by
  split
  · split
    · next heq => exact heq ▸ Finmap.lookup_erase _ _
    · next hne => exact Finmap.lookup_erase_ne hne
  · split
    · next heq => exact heq ▸ Finmap.lookup_insert _
    · next hne => exact Finmap.lookup_insert_of_ne _ hne

/-- The history and the server with the subscription of `guid` to `key` changed to `r`. -/
structure Covered (exact : Prop) (guid : Guid) (h : CloudHistory Key Guid)
    (s s' : CloudServer Key Guid) : Prop where
  lists : s'.ListsAgree exact h
  clients : s'.ClientsAgree h
  quiet : Quiet s s'

theorem ClientAgrees.cover {c : RemoteCloudClient Key Guid} {r : Option (Coverage Guid)}
    (hc : ClientAgrees h guid c) {m : Finmap fun _ : Key => Finset Guid}
    (hm : ∀ key', m.lookup key' = if key' = key then r.map Coverage.listed
      else c.subscribedKeys.lookup key') :
    ClientAgrees (h.cover guid key r) guid { c with subscribedKeys := m } where
  subscribed key' := by
    refine (hm key').trans ?_
    rw [coverage_cover_eq, Function.update_apply]
    split
    · rw [Function.update_self]
    · exact hc.subscribed key'
  uploaded := hc.uploaded
  uploadedBytes := hc.uploadedBytes

theorem ClientAgrees.cover_other {c : RemoteCloudClient Key Guid} {r : Option (Coverage Guid)}
    {guid' : Guid} (hc : ClientAgrees h guid' c) (hne : guid' ≠ guid) :
    ClientAgrees (h.cover guid key r) guid' c where
  subscribed key' := by
    rw [hc.subscribed, coverage_cover_eq, Function.update_apply]
    split
    · next heq => rw [Function.update_of_ne hne, heq]
    · rfl
  uploaded := hc.uploaded
  uploadedBytes := hc.uploadedBytes

omit [LinearOrder Key] in
theorem dataRepository_of_coverage {r : Coverage Guid} (hs : s.ListsAgree exact h)
    (hr : h.coverage key guid = some r) :
    s.dataRepository key = some (s.getOrAllocateCloudDataList key) := by
  cases hl : s.dataRepository key with
  | none =>
    have hagrees := hs key
    have hnew : s.getOrAllocateCloudDataList key = .allocated := by
      rw [getOrAllocateCloudDataList, hl]
      rfl
    have hnone := (hagrees.of_unused (by rw [hnew]; exact ⟨rfl, rfl⟩)).2 guid
    rw [hr] at hnone
    cases hnone
  | some l =>
    rw [getOrAllocateCloudDataList, hl]
    rfl

theorem Covered.of_list {r : Option (Coverage Guid)} {l : Option (CloudDataList Guid)}
    {m : Finmap fun _ : Key => Finset Guid} (hs : s.ListsAgree exact h) (hc : s.ClientsAgree h)
    (hl : (l.getD .allocated).Agrees exact (h.posters key) (h.contents key)
      (Function.update (fun c => (h.coverage key c).map Coverage.listed) guid
        (r.map Coverage.listed)))
    (hm : ∀ key', m.lookup key' = if key' = key then r.map Coverage.listed
      else (s.client guid).subscribedKeys.lookup key')
    {commands : List (ServerCommand Key)}
    (hcommands : ∀ key', .removeUploadedKey key' ∉ commands) :
    Covered exact guid (h.cover guid key r) s (((s.setClient guid
      (some { s.client guid with subscribedKeys := m })).send commands).setList key l) where
  lists key' := by
    have hholds : (h.cover guid key r).Holds exact key (l.getD .allocated) := by
      unfold CloudHistory.Holds
      rw [coverage_cover]
      exact hl
    exact hs.setList hholds (fun key' hne => sameAt_cover hne) key'
  clients guid' := hc.setClient (r := some _) ((hc guid).cover hm)
    (fun guid' c hne hagrees => hagrees.cover_other hne) guid'
  quiet := by
    refine ⟨rfl, fun key' => ?_⟩
    change _ ∈ s.commands ++ commands ↔ _
    rw [List.mem_append]
    exact or_iff_left (hcommands key')

omit [LinearOrder Key] in
theorem notMem_commands {command : ServerCommand Key} {n : ℕ} {key' : Key}
    (hne : .removeUploadedKey key' ≠ command) :
    .removeUploadedKey key' ∉ (if n = 0 then [command] else []) := by
  split
  · exact fun hmem => hne (List.mem_singleton.mp hmem)
  · exact List.not_mem_nil

theorem unsubscribeFromKey_spec (specificSystems : List Guid) {r : Coverage Guid}
    (hs : s.ListsAgree exact h) (hc : s.ClientsAgree h) (hr : h.coverage key guid = some r) :
    ∃ s', s.unsubscribeFromKey guid key specificSystems (s.client guid) r.listed = some s' ∧
      Covered exact guid (h.uncover guid specificSystems key) s s' := by
  have hsubs : (h.coverage key guid).map Coverage.listed = some r.listed := by
    rw [hr, Option.map_some]
  have huncover : h.uncover guid specificSystems key =
      h.cover guid key (r.without specificSystems) := by
    rw [uncover, hr, Option.bind_some]
  rw [huncover]
  unfold unsubscribeFromKey
  by_cases hgeneral : r.listed = ∅ ∧ specificSystems ≠ []
  · have hsame : r.without specificSystems = h.coverage key guid := by
      rw [hr, Coverage.listed_eq_empty.mp hgeneral.1, Coverage.without, if_neg hgeneral.2]
    rw [hsame, cover_self]
    exact ⟨s, if_pos hgeneral, hs, hc, .refl⟩
  · rw [if_neg hgeneral, dataRepository_of_coverage hs hr]
    have hresult : ∃ systems l', (if specificSystems = [] then
          (removeSubscriptions guid r.listed (s.getOrAllocateCloudDataList key)).map
            (((∅ : Finset Guid), ·))
        else unsubscribeLoop guid specificSystems r.listed (s.getOrAllocateCloudDataList key)) =
          some (systems, l') ∧
        (if systems = ∅ then none else some systems) =
          (r.without specificSystems).map Coverage.listed ∧
        l'.Agrees exact (h.posters key) (h.contents key)
          (Function.update (fun c => (h.coverage key c).map Coverage.listed) guid
            ((r.without specificSystems).map Coverage.listed)) := by
      by_cases hall : specificSystems = []
      · obtain ⟨l', hl', hagrees⟩ := (hs key).removeSubscriptions hsubs
        have hnone : r.without specificSystems = none := by
          cases r with
          | allSystems => exact if_pos hall
          | systems listed hne => exact if_pos hall
        rw [hnone]
        exact ⟨∅, l', by rw [if_pos hall, hl', Option.map_some], rfl, hagrees⟩
      · have hne : r.listed ≠ ∅ := fun hempty => hgeneral ⟨hempty, hall⟩
        obtain ⟨l', hl', hagrees⟩ := (hs key).unsubscribeLoop specificSystems hsubs hne
        have hwithout : (r.without specificSystems).map Coverage.listed =
            if r.listed.filter (· ∉ specificSystems) = ∅ then none
            else some (r.listed.filter (· ∉ specificSystems)) :=
          Coverage.map_listed_without hne hall
        rw [hwithout]
        exact ⟨_, l', by rw [if_neg hall, hl'], rfl, hagrees⟩
    obtain ⟨systems, l', hresult, hsystems, hagrees⟩ := hresult
    simp only [hresult, Option.map_some]
    refine ⟨_, rfl, Covered.of_list hs hc hagrees.kept (fun key' => ?_)
      fun key' => notMem_commands fun heq => by cases heq⟩
    rw [lookup_ite_erase, hsystems]

theorem replaceSubscription_spec (guid : Guid) (key : Key) (hs : s.ListsAgree exact h) (hc : s.ClientsAgree h) :
    ∃ s', s.replaceSubscription guid key = some s' ∧
      Covered exact guid (h.cover guid key none) s s' := by
  have hsubscribed : s.subscribedTo key guid = (h.coverage key guid).map Coverage.listed :=
    (hc guid).subscribed key
  unfold replaceSubscription
  rw [hsubscribed]
  cases hr : h.coverage key guid with
  | none =>
    refine ⟨s, rfl, ?_⟩
    rw [← hr, cover_self]
    exact ⟨hs, hc, .refl⟩
  | some r =>
    obtain ⟨s', hs', hcovered⟩ := unsubscribeFromKey_spec [] hs hc hr
    refine ⟨s', hs', ?_⟩
    have hnone : r.without [] = none := by
      cases r with
      | allSystems => rfl
      | systems listed hne => rfl
    rw [uncover, hr, Option.bind_some, hnone] at hcovered
    exact hcovered

theorem addSubscription_spec {specificSystems : List Guid} (hs : s.ListsAgree exact h)
    (hc : s.ClientsAgree h) (hnone : h.coverage key guid = none)
    (hnodup : exact → specificSystems.Nodup) :
    Covered exact guid (h.cover guid key (some (.ofList specificSystems))) s
      (s.addSubscription guid specificSystems key) := by
  refine Covered.of_list (l := some _) hs hc ?_ (fun key' => ?_)
    fun key' => notMem_commands fun heq => by cases heq
  · rw [Option.map_some, Coverage.listed_ofList]
    exact (hs key).addSubscriptions (by rw [hnone, Option.map_none]) hnodup
  · rw [Option.map_some, Coverage.listed_ofList]
    split
    · next heq => exact heq ▸ Finmap.lookup_insert _
    · next hne => exact Finmap.lookup_insert_of_ne _ hne

theorem subscribeLoop_spec (guid : Guid) {specificSystems : List Guid} (keys : List Key)
    (hs : s.ListsAgree exact h) (hc : s.ClientsAgree h)
    (hnodup : exact → specificSystems.Nodup) :
    ∃ s', s.subscribeLoop guid specificSystems keys = some s' ∧ Covered exact guid
      (keys.foldl (fun h key => h.cover guid key (some (.ofList specificSystems))) h) s s' := by
  induction keys generalizing s h with
  | nil => exact ⟨s, rfl, hs, hc, .refl⟩
  | cons key keys ih =>
    obtain ⟨s₁, hs₁, hreplaced⟩ := replaceSubscription_spec guid key hs hc
    have hadded := addSubscription_spec hreplaced.lists hreplaced.clients
      (coverage_cover_self h guid key none) hnodup
    rw [cover_cover] at hadded
    obtain ⟨s', hs', hrest⟩ := ih hadded.lists hadded.clients
    refine ⟨s', ?_, hrest.lists, hrest.clients,
      (hreplaced.quiet.trans hadded.quiet).trans hrest.quiet⟩
    rw [subscribeLoop, hs₁, Option.bind_some, hs']

theorem unsubscribeKeys_spec (guid : Guid) (specificSystems : List Guid) (keys : List Key)
    (hs : s.ListsAgree exact h) (hc : s.ClientsAgree h) :
    ∃ s', s.unsubscribeKeys guid specificSystems keys = some s' ∧ Covered exact guid
      (keys.foldl (uncover guid specificSystems) h) s s' := by
  induction keys generalizing s h with
  | nil => exact ⟨s, rfl, hs, hc, .refl⟩
  | cons key keys ih =>
    have hsubscribed : s.subscribedTo key guid = (h.coverage key guid).map Coverage.listed :=
      (hc guid).subscribed key
    unfold unsubscribeKeys
    rw [hsubscribed]
    cases hr : h.coverage key guid with
    | none =>
      have hsame : h.uncover guid specificSystems key = h := by
        rw [uncover, hr, Option.bind_none, ← hr, cover_self]
      rw [List.foldl_cons, hsame]
      obtain ⟨s', hs', hrest⟩ := ih hs hc
      refine ⟨s', ?_, hrest⟩
      cases s.dataRepository key with
      | none => exact hs'
      | some l => exact hs'
    | some r =>
      obtain ⟨s₁, hs₁, hone⟩ := unsubscribeFromKey_spec specificSystems hs hc hr
      obtain ⟨s', hs', hrest⟩ := ih hone.lists hone.clients
      rw [dataRepository_of_coverage hs hr]
      refine ⟨s', ?_, hrest.lists, hrest.clients, hone.quiet.trans hrest.quiet⟩
      change (s.unsubscribeFromKey guid key specificSystems (s.client guid) r.listed).bind _ = _
      rw [hs₁, Option.bind_some, hs']

theorem closeSubscriptions_spec {c : RemoteCloudClient Key Guid} {keys : List Key}
    (hs : s.ListsAgree exact h) (hnodup : keys.Nodup)
    (hkeys : ∀ key ∈ keys, ∃ r, h.coverage key guid = some r ∧
      c.subscribedKeys.lookup key = some r.listed) :
    ∃ s', s.closeSubscriptions guid c keys = some s' ∧
      s'.ListsAgree exact (keys.foldl (fun h key => h.cover guid key none) h) ∧
      s'.remoteSystems = s.remoteSystems ∧ Quiet s s' := by
  induction keys generalizing s h with
  | nil => exact ⟨s, rfl, hs, rfl, .refl⟩
  | cons key keys ih =>
    rw [List.nodup_cons] at hnodup
    obtain ⟨r, hr, hlookup⟩ := hkeys key List.mem_cons_self
    have hsubs : (h.coverage key guid).map Coverage.listed = some r.listed := by
      rw [hr, Option.map_some]
    obtain ⟨l', hl', hagrees⟩ := (hs key).closeSubscription hsubs
    have hlists : (s.setList key (some l')).ListsAgree exact (h.cover guid key none) := by
      refine hs.setList ?_ fun key' hne => sameAt_cover hne
      unfold CloudHistory.Holds
      rw [coverage_cover]
      exact hagrees
    have hrest : ∀ key' ∈ keys, ∃ r, (h.cover guid key none).coverage key' guid = some r ∧
        c.subscribedKeys.lookup key' = some r.listed := fun key' hin => by
      have hne : key' ≠ key := fun heq => hnodup.1 (heq ▸ hin)
      rw [(sameAt_cover hne).2.2]
      exact hkeys key' (List.mem_cons_of_mem _ hin)
    obtain ⟨s', hs', hagrees', hsame, hquiet⟩ := ih hlists hnodup.2 hrest
    refine ⟨s', ?_, hagrees', hsame, hquiet.notifications, hquiet.commands⟩
    simp only [closeSubscriptions, dataRepository_of_coverage hs hr, hlookup, hl',
      Option.bind_some, hs']

end CloudServer

end SLikeNet
