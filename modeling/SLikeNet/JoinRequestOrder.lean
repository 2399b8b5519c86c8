import SLikeNet.TeamSwitch

/-! The order in which `FillRequestedSlots` serves the pending requests, and when the request that
it reads in a turn is the one whose turn it is. -/

namespace SLikeNet

/-! ### Positions in a shorter list -/

namespace TeamManager

namespace World

/-! ### The order of the requests -/

/-- The request is earlier, or of the same time with the smaller index. -/
def Before (a b : JoinRequestHelper) : Prop :=
  a.whenRequestMade < b.whenRequestMade ∨
    a.whenRequestMade = b.whenRequestMade ∧ a.requestIndex < b.requestIndex

def SameKey (a b : JoinRequestHelper) : Prop :=
  a.whenRequestMade = b.whenRequestMade ∧ a.requestIndex = b.requestIndex

theorem comp_eq_lt {a b : JoinRequestHelper} :
    joinRequestHelperComp a b = .lt ↔ Before a b := by
  rw [joinRequestHelperComp, Before]
  split_ifs <;> simp <;> omega

theorem comp_eq_gt {a b : JoinRequestHelper} :
    joinRequestHelperComp a b = .gt ↔ Before b a := by
  rw [joinRequestHelperComp, Before]
  split_ifs <;> simp <;> omega

theorem comp_eq_eq {a b : JoinRequestHelper} :
    joinRequestHelperComp a b = .eq ↔ SameKey a b := by
  rw [joinRequestHelperComp, SameKey]
  split_ifs <;> simp <;> omega

variable {w w' w₁ : World} {m team limit : ℕ} {jrh : JoinRequestHelper}
  {joinRequests : List JoinRequestHelper}

/-- No two requests are of the same time and have the same index. -/
def DistinctKeys (w : World) : Prop :=
  ∀ m < w.membersCount, ∀ m' < w.membersCount, ∀ a ∈ w.joinRequestsOf m, ∀ b ∈ w.joinRequestsOf m',
    SameKey a b → a = b

theorem DistinctKeys.nodup (h : w.DistinctKeys) (hm : m < w.membersCount) :
    (w.member m).teamsRequested.Nodup := by
  rw [List.nodup_iff_injective_get]
  intro i j hij
  have hne : (w.member m).teamsRequested ≠ [] := List.ne_nil_of_length_pos i.pos
  have hmem : ∀ k : Fin (w.member m).teamsRequested.length,
      (⟨((w.member m).teamsRequested.get k).whenRequested, m, k,
        ((w.member m).teamsRequested.get k).requestIndex⟩ : JoinRequestHelper) ∈
        w.joinRequestsOf m := by
    intro k
    rw [joinRequestsOf, if_neg hne]
    exact List.mem_mapIdx.mpr ⟨k, k.isLt, rfl⟩
  have heq := h m hm m hm _ (hmem i) _ (hmem j) ⟨by rw [hij], by rw [hij]⟩
  exact Fin.ext (congrArg JoinRequestHelper.indexIntoTeamsRequested heq)

end World

end TeamManager

end SLikeNet
