import SLikeNet.CloudServerRuns

/-! What `ProcessCloudQueryWithAddresses` returns in the runs of a `CloudServer`. -/

namespace SLikeNet

variable {Key Guid : Type} [LinearOrder Key] [LinearOrder Guid]

/-- What the clients that have posted a key have posted, of all of them or of some systems. -/
def CloudHistory.rows (h : CloudHistory Key Guid) (specificSystems : List Guid) (key : Key) :
    List (Key × Guid × List UInt8) :=
  (if specificSystems ≠ [] then specificSystems.filter (· ∈ h.posters key)
    else CloudServer.inOrder (h.posters key)).map fun guid => (key, guid, h.contents key guid)

namespace CloudServer

variable {s : CloudServer Key Guid} {h : CloudHistory Key Guid} {key : Key} {exact : Prop}

/-- Where the rows of a key are returned, none of those that are asked for is an entry that only a
subscription has made. -/
def HasUploads (s : CloudServer Key Guid) (key : Key) (specificSystems : List Guid) : Prop :=
  ∀ l, s.dataRepository key = some l → 0 < l.uploaderCount → ∀ guid d,
    l.keyData.lookup guid = some d → specificSystems = [] ∨ guid ∈ specificSystems →
    d.isUploaded = true

omit [LinearOrder Key] in
theorem filterMap_lookup {m : Finmap fun _ : Guid => CloudData Guid} {posters : Finset Guid}
    {contents : Guid → List UInt8} {systems : List Guid}
    (hsystems : ∀ guid ∈ systems, (m.lookup guid).map (fun d => d.data) =
      if guid ∈ posters then some (contents guid) else none) :
    (systems.filterMap fun guid => (m.lookup guid).map (guid, ·)).map
        (fun row => (key, row.1, row.2.data)) =
      (systems.filter (· ∈ posters)).map fun guid => (key, guid, contents guid) := by
  induction systems with
  | nil => rfl
  | cons system systems ih =>
    have hrest := ih fun guid hin => hsystems guid (List.mem_cons_of_mem _ hin)
    have hfirst := hsystems system List.mem_cons_self
    by_cases hmem : system ∈ posters
    · rw [if_pos hmem] at hfirst
      obtain ⟨d, hd, hdata⟩ := Option.map_eq_some_iff.mp hfirst
      rw [List.filterMap_cons_some (b := (system, d)) (by rw [hd, Option.map_some]),
        List.filter_cons_of_pos (by simpa using hmem), List.map_cons, List.map_cons, hrest, hdata]
    · rw [if_neg hmem] at hfirst
      rw [List.filterMap_cons_none (by rw [Option.map_eq_none_iff.mp hfirst, Option.map_none]),
        List.filter_cons_of_neg (by simpa using hmem), hrest]

omit [LinearOrder Key] in
theorem rows_eq {specificSystems : List Guid} (hs : s.ListsAgree exact h)
    (huploads : s.HasUploads key specificSystems) :
    (s.rows key specificSystems).map (fun row => (key, row.1, row.2.data)) =
      h.rows specificSystems key := by
  have hagrees := hs key
  have hempty : h.posters key = ∅ → h.rows specificSystems key = [] := fun hnone => by
    unfold CloudHistory.rows
    rw [hnone, inOrder, Finset.sort_empty]
    split
    · rw [List.filter_eq_nil_iff.mpr fun guid _ => by simp, List.map_nil]
    · rfl
  unfold rows
  cases hl : s.dataRepository key with
  | none =>
    rw [getOrAllocateCloudDataList, hl] at hagrees
    exact (hempty (hagrees.of_unused ⟨rfl, rfl⟩).1).symm
  | some l =>
    rw [getOrAllocateCloudDataList, hl] at hagrees
    change l.Agrees _ _ _ _ at hagrees
    dsimp only
    split
    · next hcount =>
      have hlookup : ∀ guid, specificSystems = [] ∨ guid ∈ specificSystems →
          (l.keyData.lookup guid).map (fun d => d.data) =
            if guid ∈ h.posters key then some (h.contents key guid) else none := by
        intro guid hasked
        rw [← hagrees.upload guid, CloudDataList.upload]
        cases hd : l.keyData.lookup guid with
        | none => rfl
        | some d =>
          rw [Option.map_some, Option.bind_some, if_pos (huploads l hl hcount guid d hd hasked)]
      unfold CloudHistory.rows
      by_cases hall : specificSystems = []
      · have hkeys : l.keyData.keys = h.posters key := by
          ext guid
          rw [Finmap.mem_keys, ← Finmap.lookup_isSome]
          have hguid := hlookup guid (.inl hall)
          split at hguid
          · next hmem =>
            obtain ⟨d, hd, -⟩ := Option.map_eq_some_iff.mp hguid
            exact iff_of_true (by rw [hd]; rfl) hmem
          · next hmem =>
            exact iff_of_false (by rw [Option.map_eq_none_iff.mp hguid]; simp) hmem
        rw [if_neg (not_not.mpr hall), if_neg (not_not.mpr hall), hkeys,
          filterMap_lookup fun guid _ => hlookup guid (.inl hall), List.filter_eq_self.mpr]
        exact fun guid hin => decide_eq_true ((Finset.mem_sort _).mp hin)
      · rw [if_pos hall, if_pos hall]
        exact filterMap_lookup fun guid hin => hlookup guid (.inr hin)
    · next hcount =>
      refine (hempty (Finset.card_eq_zero.mp ?_)).symm
      have hle := hagrees.uploaderCount.1
      omega

end CloudServer

namespace CloudRun

open CloudServer

variable {w : CloudRun Key Guid}

end CloudRun

end SLikeNet
