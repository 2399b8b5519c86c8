import Mathlib.Data.UInt
import SLikeNet.CloudServerStore
import SLikeNet.Library.Transition

/-! What a `CloudServer` with `maxUploadBytesPerClient` keeps of a `Post` that it refuses. -/

namespace SLikeNet

variable {Key Guid : Type} [LinearOrder Key] [LinearOrder Guid]

namespace CloudServer

open CloudDataList

variable {s : CloudServer Key Guid} {maxUploadBytesPerClient : UInt64} {guid : Guid} {key : Key}
  {data : List UInt8}

/-! ### The limit -/

def Exceeds (maxUploadBytesPerClient bytes : UInt64) : Prop :=
  0 < maxUploadBytesPerClient ∧ maxUploadBytesPerClient < bytes

instance (maxUploadBytesPerClient bytes : UInt64) :
    Decidable (Exceeds maxUploadBytesPerClient bytes) := inferInstanceAs (Decidable (_ ∧ _))

/-- The bytes that the client would have uploaded, which are counted modulo 2 ^ 64. -/
def bytesAfter (guid : Guid) (key : Key) (data : List UInt8) (s : CloudServer Key Guid) : UInt64 :=
  match (s.getOrAllocateCloudDataList key).keyData.lookup guid with
  | none => .ofNat (s.client guid).uploadedBytes + .ofNat data.length
  | some d => .ofNat (s.client guid).uploadedBytes - .ofNat d.data.length + .ofNat data.length

/-- What `OnPostRequest` has done when it comes to the bytes: the key is in `uploadedKeys`, and the
list of the key counts one more uploader. -/
def touched (guid : Guid) (key : Key) (s : CloudServer Key Guid) : CloudServer Key Guid :=
  let c := s.client guid
  let l := s.getOrAllocateCloudDataList key
  (s.setClient guid (some { c with uploadedKeys := insert key c.uploadedKeys })).setList key
    (some { l with uploaderCount := l.uploaderCount + 1 })

/-- What `OnPostRequest` undoes before it returns. -/
def undone (guid : Guid) (key : Key) (s : CloudServer Key Guid) : CloudServer Key Guid :=
  match (s.getOrAllocateCloudDataList key).keyData.lookup guid with
  | none =>
    -- The condition is `keyDataListExists==false`, which is the branch that this is in: the list
    -- is deleted where it is not new, too.
    let s' := (s.touched guid key).setList key none
    if IsUnused (s'.client guid) then s'.setClient guid none else s'
  | some _ =>
    if s.dataRepository key = none then (s.touched guid key).setList key none
    else s.touched guid key

instance : Decidable (s.dataRepository key = none) := decidable_of_iff _ Option.isNone_iff_eq_none

/-- `OnPostRequest`, with its limit. -/
def onLimitedPostRequest (maxUploadBytesPerClient : UInt64) (guid : Guid) (key : Key)
    (data : List UInt8) (s : CloudServer Key Guid) : Option (CloudServer Key Guid) :=
  if Exceeds maxUploadBytesPerClient (.ofNat data.length) then some s
  else if Exceeds maxUploadBytesPerClient (s.bytesAfter guid key data) then
    some (s.undone guid key)
  else s.onPostRequest guid key data

def receiveLimited (maxUploadBytesPerClient : UInt64) (s : CloudServer Key Guid) :
    CloudMessage Key Guid → Option (CloudServer Key Guid)
  | .post guid key data => s.onLimitedPostRequest maxUploadBytesPerClient guid key data
  | message => s.receive message

/-- The server before a message: what it has sent for the one before is on its way. -/
def sentAll (s : CloudServer Key Guid) : CloudServer Key Guid :=
  { s with notifications := 0, commands := [] }

def performLimited (maxUploadBytesPerClient : UInt64) (server : Option (CloudServer Key Guid))
    (message : CloudMessage Key Guid) : Option (CloudServer Key Guid) :=
  server.bind fun s => s.sentAll.receiveLimited maxUploadBytesPerClient message

/-! ### A refused message -/

/-- The message is a post that one of the two tests refuses. -/
def Refuses (maxUploadBytesPerClient : UInt64) (s : CloudServer Key Guid) :
    CloudMessage Key Guid → Prop
  | .post guid key data => Exceeds maxUploadBytesPerClient (.ofNat data.length) ∨
    Exceeds maxUploadBytesPerClient (s.bytesAfter guid key data)
  | _ => False

/-- The post is too long by itself, or it is for a key that the client has in `uploadedKeys` and
the server has no list of. -/
def HasNothingToUndo (maxUploadBytesPerClient : UInt64) (s : CloudServer Key Guid) :
    CloudMessage Key Guid → Prop
  | .post guid key data => Exceeds maxUploadBytesPerClient (.ofNat data.length) ∨
    s.dataRepository key = none ∧ key ∈ (s.client guid).uploadedKeys
  | _ => True

theorem client_touched : (s.touched guid key).remoteSystems guid = some { s.client guid with
    uploadedKeys := insert key (s.client guid).uploadedKeys } :=
  Function.update_self _ _ _

omit [LinearOrder Key] [LinearOrder Guid] in
theorem client_of_eq_some {c : RemoteCloudClient Key Guid} (h : s.remoteSystems guid = some c) :
    s.client guid = c := by
  unfold client
  rw [h]
  rfl

theorem undone_of_lookup_none
    (h : (s.getOrAllocateCloudDataList key).keyData.lookup guid = none) :
    s.undone guid key = (s.touched guid key).setList key none := by
  have hclient : ((s.touched guid key).setList key none).client guid = { s.client guid with
      uploadedKeys := insert key (s.client guid).uploadedKeys } := by
    unfold client
    rw [show ((s.touched guid key).setList key none).remoteSystems guid = _ from client_touched]
    rfl
  rw [undone, h]
  dsimp only
  rw [if_neg]
  intro hunused
  have hempty := hunused.1
  rw [hclient] at hempty
  exact Finset.insert_ne_empty _ _ hempty

omit [LinearOrder Key] [LinearOrder Guid] in
theorem remoteSystems_of_mem (h : key ∈ (s.client guid).uploadedKeys) :
    s.remoteSystems guid = some (s.client guid) := by
  unfold client at h ⊢
  cases hclient : s.remoteSystems guid with
  | none =>
    rw [hclient] at h
    exact absurd h (Finset.notMem_empty key)
  | some c => rfl

theorem touched_setList_none_eq_iff : (s.touched guid key).setList key none = s ↔
    s.dataRepository key = none ∧ key ∈ (s.client guid).uploadedKeys := by
  constructor
  · intro heq
    have hlist := congrFun (congrArg CloudServer.dataRepository heq) key
    have hclient := congrFun (congrArg CloudServer.remoteSystems heq) guid
    change (s.touched guid key).remoteSystems guid = _ at hclient
    rw [client_touched] at hclient
    refine ⟨hlist.symm.trans (Function.update_self _ _ _), ?_⟩
    rw [client_of_eq_some hclient.symm]
    exact Finset.mem_insert_self key _
  · rintro ⟨hnone, hmem⟩
    have hkeys : insert key (s.client guid).uploadedKeys = (s.client guid).uploadedKeys :=
      Finset.insert_eq_of_mem hmem
    have hlists : ((s.touched guid key).setList key none).dataRepository = s.dataRepository := by
      change Function.update (Function.update s.dataRepository key _) key none = _
      rw [Function.update_idem, ← hnone, Function.update_eq_self]
    have hclients : ((s.touched guid key).setList key none).remoteSystems = s.remoteSystems := by
      change Function.update s.remoteSystems guid (some { s.client guid with
        uploadedKeys := insert key (s.client guid).uploadedKeys }) = _
      rw [hkeys, ← remoteSystems_of_mem hmem, Function.update_eq_self]
    obtain ⟨dataRepository, remoteSystems, notifications, commands⟩ := s
    exact CloudServer.mk.injEq .. ▸ ⟨hlists, hclients, rfl, rfl⟩

/-- The list of a key with an entry of the client is there, and keeps the uploader that it was
given. -/
theorem undone_ne_of_lookup_some {d : CloudData Guid}
    (h : (s.getOrAllocateCloudDataList key).keyData.lookup guid = some d) :
    s.dataRepository key ≠ none ∧ s.undone guid key ≠ s := by
  have hlist : s.dataRepository key ≠ none := by
    intro hnone
    rw [getOrAllocateCloudDataList, hnone] at h
    exact nomatch (Finmap.lookup_empty guid).symm.trans h
  refine ⟨hlist, fun heq => ?_⟩
  rw [undone, h] at heq
  dsimp only at heq
  rw [if_neg hlist] at heq
  obtain ⟨l, hl⟩ := Option.ne_none_iff_exists'.mp hlist
  have hcount : (s.touched guid key).dataRepository key =
      some { l with uploaderCount := l.uploaderCount + 1 } := by
    rw [touched, getOrAllocateCloudDataList, hl]
    exact Function.update_self _ _ _
  rw [heq, hl] at hcount
  exact Nat.succ_ne_self _ (congrArg CloudDataList.uploaderCount (Option.some.inj hcount)).symm

theorem receiveLimited_eq_iff {message : CloudMessage Key Guid}
    (h : s.Refuses maxUploadBytesPerClient message) :
    s.receiveLimited maxUploadBytesPerClient message = some s ↔
      s.HasNothingToUndo maxUploadBytesPerClient message := by
  cases message with
  | post guid key data =>
    change s.onLimitedPostRequest _ _ _ _ = _ ↔ _ ∨ _
    rw [onLimitedPostRequest]
    split
    · next hlong => exact iff_of_true rfl (.inl hlong)
    · next hlong =>
      rw [if_pos (h.resolve_left hlong), Option.some_inj, or_iff_right hlong]
      cases hlookup : (s.getOrAllocateCloudDataList key).keyData.lookup guid with
      | none => rw [undone_of_lookup_none hlookup, touched_setList_none_eq_iff]
      | some d =>
        obtain ⟨hlist, hne⟩ := undone_ne_of_lookup_some hlookup
        exact iff_of_false hne fun hboth => hlist hboth.1
  | _ => exact h.elim

/-- In a run from any state every refused message leaves the server as it was and sends nothing if
and only if none of them has something to undo. -/
theorem refused_unchanged_iff (maxUploadBytesPerClient : UInt64) (s₀ : CloudServer Key Guid)
    (messages : List (CloudMessage Key Guid)) :
    Transition.Along (performLimited maxUploadBytesPerClient)
        (fun server message => ∀ s, server = some s →
          s.sentAll.Refuses maxUploadBytesPerClient message →
          performLimited maxUploadBytesPerClient server message = some s.sentAll)
        (some s₀) messages ↔
      Transition.Along (performLimited maxUploadBytesPerClient)
        (fun server message => ∀ s, server = some s →
          s.sentAll.Refuses maxUploadBytesPerClient message →
          s.sentAll.HasNothingToUndo maxUploadBytesPerClient message)
        (some s₀) messages := by
  refine ⟨fun h => h.mono ?_, fun h => h.mono ?_⟩
  · rintro server message hunchanged s rfl hrefuses
    exact (receiveLimited_eq_iff hrefuses).mp (hunchanged s rfl hrefuses)
  · rintro server message hnothing s rfl hrefuses
    exact (receiveLimited_eq_iff hrefuses).mpr (hnothing s rfl hrefuses)

/-- The second post of the client 1 is refused, and the list that the client 0 has posted to is
gone. -/
theorem refused_deletes : ¬∀ messages : List (CloudMessage ℕ ℕ),
    Transition.Along (performLimited 1)
      (fun server message => ∀ s, server = some s → s.sentAll.Refuses 1 message →
        performLimited 1 server message = some s.sentAll)
      (some .initial) messages := by
  intro h
  have hlast := h [.post 0 5 [7], .post 1 6 [8], .post 1 5 [9]] [.post 0 5 [7], .post 1 6 [8]]
    (.post 1 5 [9]) [] rfl
  have hstate : (([.post 0 5 [7], .post 1 6 [8]] : List (CloudMessage ℕ ℕ)).foldl
      (performLimited 1) (some .initial)).any (fun s => decide (Exceeds 1
        (s.sentAll.bytesAfter 1 5 [9])) && (s.sentAll.dataRepository 5).isSome) = true := by
    decide +kernel
  obtain ⟨s, hs, hstate⟩ := (Option.any_eq_true _ _).mp hstate
  obtain ⟨hexceeds, hsome⟩ := Bool.and_eq_true_iff.mp hstate
  have hrefuses : s.sentAll.Refuses 1 (.post 1 5 [9]) := .inr (of_decide_eq_true hexceeds)
  have hunchanged := hlast s hs hrefuses
  rw [hs] at hunchanged
  obtain hlong | ⟨hnone, -⟩ := (receiveLimited_eq_iff hrefuses).mp hunchanged
  · exact absurd hlong (by decide)
  · exact Option.isSome_iff_ne_none.mp hsome hnone

end CloudServer

end SLikeNet
