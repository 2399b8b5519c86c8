import SLikeNet.AVLTree

/-! The rotations and the loop of `AVLBalancedBinarySearchTree::BalanceTree`. -/

namespace SLikeNet

open BinaryTree

namespace AVLBalancedBinarySearchTree

variable {α : Type*}

/-! ### Heights and rotations -/

theorem heightRecursive_eq (t : BinaryTree α) : heightRecursive t = t.height := by
  induction t with
  | nil => rfl
  | node x l r ihl ihr =>
    rw [heightRecursive, ihl, ihr]
    cases l <;> cases r <;> simp [isNil, height] <;> grind

theorem heightIn_eq {size : ℕ} (hsize : size ≠ 0) (t : BinaryTree α) :
    heightIn size t = t.height := by
  rw [heightIn, heightRecursive_eq]
  cases t with
  | nil => simp [isNil, height]
  | node x l r => simp [isNil, hsize]

theorem higher_make {size : ℕ} (hsize : size ≠ 0) (side : Side) (near far : BinaryTree α)
    (item : α) :
    higher size side (make side near item far) = decide (far.height < near.height) := by
  have hnil : (make side near item far).isNil = false := by cases side <;> rfl
  rw [higher, hnil, child_make_same, child_make_other, heightIn_eq hsize, heightIn_eq hsize]
  rfl

theorem toList_rotate (side : Side) (p d q : BinaryTree α) (c b : α) :
    (make side (make side p c d) b q).toList = (make side p c (make side d b q)).toList := by
  cases side <;> simp [make, toList]

variable [LinearOrder α]

theorem childOf_place {frames : List (Frame α)} {side : Side} {near far : BinaryTree α} {x : α}
    (h : Sorted (plug frames (make side near x far))) (side' : Side) :
    childOf side' (plug frames (make side near x far)) (some x) =
      ((make side near x far).child side').item? := by
  rw [childOf, Option.bind_some, find_place h]

theorem rotate_eq {frames : List (Frame α)} {side : Side} {p d q : BinaryTree α} {c b : α}
    (h : Sorted (plug frames (make side (make side p c d) b q))) :
    rotate side (plug frames (make side (make side p c d) b q)) (some c) =
      some (plug frames (make side p c (make side d b q))) := by
  have hplace : Sorted (plug (⟨side, b, q⟩ :: frames) (make side p c d)) := h
  have hc : find c [] (plug frames (make side (make side p c d) b q)) =
      (⟨side, b, q⟩ :: frames, make side p c d) := find_place hplace
  rw [rotate, Option.bind_some, hc]
  dsimp only
  rw [if_pos rfl, find_place h, child_make_same, child_make_other]

theorem doubleRotate_eq {frames : List (Frame α)} {side : Side} {p u v q : BinaryTree α}
    {c m x : α} (h : Sorted (plug frames (make side (make side p c (make side u m v)) x q))) :
    doubleRotate side (plug frames (make side (make side p c (make side u m v)) x q)) x =
      some (plug frames (make side (make side p c u) m (make side v x q))) := by
  have hinner : make side p c (make side u m v) =
      make side.other (make side.other v m u) c p := by
    rw [make_other, make_other]
  have hturned : make side.other v m (make side.other u c p) =
      make side (make side p c u) m v := by
    rw [make_other, make_other]
  have hplace : Sorted (plug (⟨side, x, q⟩ :: frames)
      (make side.other (make side.other v m u) c p)) := by
    rw [← hinner]
    exact h
  have hfirst := rotate_eq hplace
  rw [hturned, ← hinner] at hfirst
  have hsecond : Sorted (plug frames (make side (make side (make side p c u) m v) x q)) := by
    apply sorted_plug_congr h
    cases side <;> simp [make, toList]
  have hchild : childOf side.other (plug frames (make side (make side p c (make side u m v)) x q))
      (childOf side (plug frames (make side (make side p c (make side u m v)) x q)) (some x)) =
      some m := by
    rw [childOf_place h, child_make_same, item?_make]
    have hc : Sorted (plug (⟨side, x, q⟩ :: frames) (make side p c (make side u m v))) := h
    have hinner := childOf_place hc side.other
    rw [child_make_other, item?_make] at hinner
    exact hinner
  have hrise : childOf side (plug frames (make side (make side (make side p c u) m v) x q))
      (some x) = some m := by
    rw [childOf_place hsecond, child_make_same, item?_make]
  rw [doubleRotate, hchild]
  refine (congrArg (fun t => t.bind fun t => rotate side t (childOf side t (some x)))
    hfirst).trans ?_
  show rotate side (plug frames (make side (make side (make side p c u) m v) x q))
    (childOf side (plug frames (make side (make side (make side p c u) m v) x q)) (some x)) = _
  rw [hrise, rotate_eq hsecond]

/-- What is done at a node whose child on `side` is too high. -/
def turn (size : ℕ) (side : Side) (t c : BinaryTree α) (x : α) : Option (BinaryTree α) :=
  if higher size side c then rotate side t c.item? else doubleRotate side t x

/-- A turn keeps the items, and unless it meets a lopsided child it balances the subtree; this one
gets lower by one, unless the subtrees of the child are equally high. -/
theorem turn_eq {frames : List (Frame α)} {side : Side} {c q : BinaryTree α} {x : α} {size : ℕ}
    (h : Sorted (plug frames (make side c x q))) (hsize : size ≠ 0) (hc : c.Balanced)
    (hq : q.Balanced) (hheight : c.height = q.height + 2) :
    ∃ p m v, turn size side (plug frames (make side c x q)) c x =
        some (plug frames (make side p m (make side v x q))) ∧
      (make side p m (make side v x q)).toList = (make side c x q).toList ∧
      (¬ Lopsided side c → (make side p m (make side v x q)).Balanced ∧
        (make side p m (make side v x q)).height =
          if (c.child side).height = (c.child side.other).height then c.height + 1
          else c.height) := by
  obtain ⟨p, y, d, rfl⟩ : ∃ p y d, c = make side p y d := exists_make side (by omega)
  rw [height_make] at hheight
  obtain ⟨hp, hd, hle, hge⟩ := balanced_make.mp hc
  rw [turn, higher_make hsize, child_make_same, child_make_other]
  by_cases houter : d.height < p.height
  · -- the outer subtree is higher: a single rotation
    refine ⟨p, y, d, ?_, (toList_rotate side p d q y x).symm, fun _ => ?_⟩
    · rw [if_pos (decide_eq_true houter), item?_make, rotate_eq h]
    · simp only [balanced_make, height_make]
      rw [if_neg (by omega)]
      exact ⟨⟨hp, ⟨hd, hq, by omega, by omega⟩, by omega, by omega⟩, by omega⟩
  · obtain ⟨u, m, v, rfl⟩ : ∃ u m v, d = make side u m v := exists_make side (by omega)
    obtain ⟨hu, hv, hle', hge'⟩ := balanced_make.mp hd
    rw [height_make] at hle hge hheight houter
    refine ⟨make side p y u, m, v, ?_, ?_, fun hnot => ?_⟩
    · rw [if_neg (by simpa [height_make] using houter), doubleRotate_eq h]
    · cases side <;> simp [make, toList]
    · simp only [Lopsided, child_make_same, child_make_other, height_make, not_and] at hnot
      simp only [balanced_make, height_make]
      refine ⟨⟨⟨hp, hu, ?_, ?_⟩, ⟨hv, hq, ?_, ?_⟩, ?_, ?_⟩, ?_⟩ <;>
        first
          | omega
          | (split <;> omega)

/-! ### The loop of `BalanceTree` -/

theorem find_of_item? {t : BinaryTree α} {x : α} (h : t.item? = some x) :
    (find x [] t).1 = [] := by
  cases t with
  | nil => cases h
  | node y l r =>
    obtain rfl := Option.some.inj h
    rw [find, if_pos rfl]

theorem item?_plug_ne {frame : Frame α} {frames : List (Frame α)} {side : Side}
    {near far : BinaryTree α} {x : α}
    (h : Sorted (plug (frame :: frames) (make side near x far))) :
    (plug (frame :: frames) (make side near x far)).item? ≠ some x := by
  intro hroot
  have hnone := find_of_item? hroot
  rw [find_place h] at hnone
  cases hnone

theorem findParent_place {frame : Frame α} {frames : List (Frame α)} {side : Side}
    {near far : BinaryTree α} {x : α}
    (h : Sorted (plug (frame :: frames) (make side near x far))) :
    findParent (plug (frame :: frames) (make side near x far)) x = some frame.item := by
  rw [findParent, find_place h]
  rfl

/-- The rest of a round behind the rotations. -/
def goOn (size : ℕ) (rotateOnce : Bool) (rounds : ℕ) (t : BinaryTree α) (current : α) :
    Option (BinaryTree α) :=
  if t.item? = some current then some t
  else balanceTree size rotateOnce rounds t (findParent t current)

variable {size rounds : ℕ} {rotateOnce : Bool} {frames : List (Frame α)} {side : Side}
  {near far : BinaryTree α} {x : α}

theorem goOn_place (size : ℕ) (rotateOnce : Bool) (rounds : ℕ)
    (h : Sorted (plug frames (make side near x far))) :
    goOn size rotateOnce rounds (plug frames (make side near x far)) x =
      balanceTree size rotateOnce rounds (plug frames (make side near x far))
        (frames.head?.map (·.item)) := by
  cases frames with
  | nil =>
    have hroot : (plug [] (make side near x far)).item? = some x := item?_make side near far x
    rw [goOn, if_pos hroot]
    cases rounds <;> rfl
  | cons frame frames =>
    rw [goOn, if_neg (item?_plug_ne h), findParent_place h]
    rfl

theorem balanceTree_quiet (rotateOnce : Bool) (rounds : ℕ)
    (h : Sorted (plug frames (make side near x far))) (hsize : size ≠ 0)
    (hnear : near.height ≤ far.height + 1) (hfar : far.height ≤ near.height + 1) :
    balanceTree size rotateOnce (rounds + 1) (plug frames (make side near x far)) (some x) =
      goOn size rotateOnce rounds (plug frames (make side near x far)) x := by
  rw [balanceTree, find_place h]
  dsimp only
  rw [heightIn_eq hsize, heightIn_eq hsize]
  cases side with
  | left =>
    have hleft : (make .left near x far).child .left = near := rfl
    have hright : (make .left near x far).child .right = far := rfl
    rw [hleft, hright, if_neg (by omega), if_neg (by omega)]
    rfl
  | right =>
    have hleft : (make .right near x far).child .left = far := rfl
    have hright : (make .right near x far).child .right = near := rfl
    rw [hleft, hright, if_neg (by omega), if_neg (by omega)]
    rfl

theorem balanceTree_turn (rotateOnce : Bool) (rounds : ℕ)
    (h : Sorted (plug frames (make side near x far))) (hsize : size ≠ 0)
    (hheight : near.height = far.height + 2) :
    balanceTree size rotateOnce (rounds + 1) (plug frames (make side near x far)) (some x) =
      (turn size side (plug frames (make side near x far)) near x).bind fun t =>
        if rotateOnce then some t else goOn size rotateOnce rounds t x := by
  rw [balanceTree, find_place h]
  dsimp only
  rw [heightIn_eq hsize, heightIn_eq hsize]
  cases side with
  | left =>
    have hleft : (make .left near x far).child .left = near := rfl
    have hright : (make .left near x far).child .right = far := rfl
    rw [hleft, hright, if_neg (by omega), if_pos hheight]
    rfl
  | right =>
    have hleft : (make .right near x far).child .left = far := rfl
    have hright : (make .right near x far).child .right = near := rfl
    rw [hleft, hright, if_pos hheight]
    rfl

/-- What the loop makes of a tree, from the node above a place on. -/
def Rebalances (size : ℕ) (rotateOnce : Bool) (rounds : ℕ) (frames : List (Frame α))
    (t : BinaryTree α) : Prop :=
  ∃ t', balanceTree size rotateOnce rounds (plug frames t) (frames.head?.map (·.item)) = some t' ∧
    t'.toList = (plug frames t).toList ∧ t'.Balanced

theorem rebalances_nil {t : BinaryTree α} (h : t.Balanced) :
    Rebalances size rotateOnce rounds [] t := by
  refine ⟨t, ?_, rfl, h⟩
  cases rounds <;> rfl

theorem Rebalances.cons {frame : Frame α} {t : BinaryTree α}
    (hsorted : Sorted (plug (frame :: frames) t)) (hsize : size ≠ 0)
    (hle : t.height ≤ frame.sibling.height + 1) (hge : frame.sibling.height ≤ t.height + 1)
    (h : Rebalances size rotateOnce rounds frames (frame.fill t)) :
    Rebalances size rotateOnce (rounds + 1) (frame :: frames) t := by
  obtain ⟨t', hrun, hlist, hbalanced⟩ := h
  refine ⟨t', ?_, hlist, hbalanced⟩
  have hplace : Sorted (plug frames (make frame.side t frame.item frame.sibling)) := hsorted
  have hround := balanceTree_quiet rotateOnce rounds hplace hsize hle hge
  rw [goOn_place _ _ _ hplace] at hround
  exact hround.trans hrun

theorem Rebalances.turn {frame : Frame α} {t p v : BinaryTree α} {m : α}
    (hsorted : Sorted (plug (frame :: frames) t)) (hsize : size ≠ 0)
    (hheight : frame.sibling.height = t.height + 2)
    (hturn : AVLBalancedBinarySearchTree.turn size frame.side.other
      (plug frames (make frame.side.other frame.sibling frame.item t)) frame.sibling frame.item =
        some (plug frames (make frame.side.other p m (make frame.side.other v frame.item t))))
    (hlist : (make frame.side.other p m (make frame.side.other v frame.item t)).toList =
      (make frame.side.other frame.sibling frame.item t).toList)
    (hle : p.height ≤ (make frame.side.other v frame.item t).height + 1)
    (hge : (make frame.side.other v frame.item t).height ≤ p.height + 1)
    (h : Rebalances size false rounds frames
      (make frame.side.other p m (make frame.side.other v frame.item t))) :
    Rebalances size false (rounds + 1 + 1) (frame :: frames) t := by
  obtain ⟨t', hrun, hsame, hbalanced⟩ := h
  have hfill : frame.fill t = make frame.side.other frame.sibling frame.item t :=
    (make_other _ _ _ _).symm
  have hplace : Sorted (plug frames (make frame.side.other frame.sibling frame.item t)) := by
    rw [← hfill]
    exact hsorted
  have hnew := sorted_plug_congr hplace hlist.symm
  have hinnerMake : make frame.side.other p m (make frame.side.other v frame.item t) =
      make frame.side (make frame.side.other v frame.item t) m p := make_other _ _ _ _
  have hinner : Sorted (plug (⟨frame.side, m, p⟩ :: frames)
      (make frame.side.other v frame.item t)) := by
    rw [hinnerMake] at hnew
    exact hnew
  have hfirst := balanceTree_turn false (rounds + 1) hplace hsize hheight
  have hgo := goOn_place size false (rounds + 1) hinner
  have hsecond := balanceTree_quiet false rounds hnew hsize hle hge
  rw [goOn_place _ _ _ hnew, hrun] at hsecond
  refine ⟨t', ?_, hsame.trans ((toList_plug_congr hlist frames).trans ?_), hbalanced⟩
  · rw [hturn] at hfirst
    have hfill' : plug (frame :: frames) t =
        plug frames (make frame.side.other frame.sibling frame.item t) := by
      rw [← hfill]
      rfl
    rw [hfill']
    refine hfirst.trans ?_
    show goOn size false (rounds + 1) (plug frames (make frame.side.other p m
      (make frame.side.other v frame.item t))) frame.item = some t'
    rw [hinnerMake]
    refine hgo.trans ?_
    rw [hinnerMake] at hsecond
    exact hsecond
  · rw [← hfill]
    rfl

theorem rebalances_of_balanced {t : BinaryTree α} (hsorted : Sorted (plug frames t))
    (hsize : size ≠ 0) (h : (plug frames t).Balanced) (hrounds : frames.length ≤ rounds) :
    Rebalances size rotateOnce rounds frames t := by
  induction frames generalizing t rounds with
  | nil => exact rebalances_nil h
  | cons frame frames ih =>
    rw [List.length_cons] at hrounds
    obtain ⟨rounds, rfl⟩ := Nat.exists_eq_succ_of_ne_zero (Nat.ne_of_gt (Nat.zero_lt_of_lt hrounds))
    have hfill : (plug frames (make frame.side t frame.item frame.sibling)).Balanced := h
    obtain ⟨-, -, hle, hge⟩ := balanced_make.mp (balanced_plug.mp hfill).1
    exact .cons hsorted hsize hle hge (ih hsorted h (Nat.le_of_succ_le_succ hrounds))

/-- Up from a subtree that got one higher, in the mode that ends with the first rotation. Induction
on the way up: the subtree is a new leaf, or one of its children is higher than the other. -/
theorem rebalances_grown {t : BinaryTree α} {h : ℕ} (hsorted : Sorted (plug frames t))
    (hsize : size ≠ 0) (ht : t.Balanced) (hheight : t.height = h + 1) (hhole : Hole frames h)
    (hleans : h = 0 ∨ ∀ side, (t.child side).height ≠ (t.child side.other).height)
    (hrounds : frames.length ≤ rounds) : Rebalances size true rounds frames t := by
  induction frames generalizing t h rounds with
  | nil => exact rebalances_nil ht
  | cons frame frames ih =>
    obtain ⟨hsibling, hle, hge, hhole⟩ := hhole
    rw [List.length_cons] at hrounds
    obtain ⟨rounds, rfl⟩ := Nat.exists_eq_succ_of_ne_zero (Nat.ne_of_gt (Nat.zero_lt_of_lt hrounds))
    have hplace : Sorted (plug frames (make frame.side t frame.item frame.sibling)) := hsorted
    have hfill : (frame.fill t).height = max t.height frame.sibling.height + 1 :=
      height_make _ _ _ _
    rcases Nat.lt_trichotomy frame.sibling.height h with hlow | hsame | hhigh
    · -- the rotation brings the height back
      obtain ⟨p, m, v, hturn, hlist, hnew⟩ := turn_eq hplace hsize ht hsibling (by omega)
      have hne := hleans.resolve_left (by omega) frame.side
      obtain ⟨hbalanced, hnewHeight⟩ := hnew fun hlopsided => hne hlopsided.1
      rw [if_neg hne] at hnewHeight
      refine ⟨_, ?_, toList_plug_congr hlist frames, balanced_plug.mpr ⟨hbalanced, ?_⟩⟩
      · have hround := balanceTree_turn true rounds hplace hsize (by omega)
        rw [hturn] at hround
        exact hround
      · rw [hnewHeight, hheight]
        rwa [show max h frame.sibling.height + 1 = h + 1 by omega] at hhole
    · refine .cons hsorted hsize (by omega) (by omega)
        (ih (h := h + 1) hsorted ?_ ?_ ?_ ?_ (by omega))
      · exact balanced_make.mpr ⟨ht, hsibling, by omega, by omega⟩
      · omega
      · rwa [hsame, Nat.max_self] at hhole
      · right
        intro side
        have hcases : side = frame.side ∨ side = frame.side.other := by
          cases side <;> cases frame.side <;> simp [Side.other]
        rw [Frame.fill]
        rcases hcases with rfl | rfl
        · rw [child_make_same, child_make_other]
          omega
        · rw [other_other, child_make_same, child_make_other]
          omega
    · refine .cons hsorted hsize (by omega) (by omega)
        (rebalances_of_balanced hsorted hsize (balanced_plug.mpr ⟨?_, ?_⟩) (by omega))
      · exact balanced_make.mpr ⟨ht, hsibling, by omega, by omega⟩
      · rwa [hfill, hheight, show max (h + 1) frame.sibling.height =
          max h frame.sibling.height by omega]

theorem rebalances_shrunk {t : BinaryTree α} (hsorted : Sorted (plug frames t)) (hsize : size ≠ 0)
    (ht : t.Balanced) (hhole : Hole frames (t.height + 1)) (heven : ¬ Uneven frames t.height)
    (hrounds : 2 * frames.length ≤ rounds) : Rebalances size false rounds frames t := by
  induction frames generalizing t rounds with
  | nil => exact rebalances_nil ht
  | cons frame frames ih =>
    obtain ⟨hsibling, hle, hge, hhole⟩ := hhole
    rw [List.length_cons] at hrounds
    obtain ⟨rounds, rfl⟩ : ∃ rest, rounds = rest + 1 + 1 := ⟨rounds - 2, by omega⟩
    have hfill : (frame.fill t).height = max t.height frame.sibling.height + 1 :=
      height_make _ _ _ _
    rw [Uneven] at heven
    rcases (by omega : frame.sibling.height = t.height + 2 ∨ frame.sibling.height = t.height ∨
      frame.sibling.height = t.height + 1) with hhigh | hsame | hone
    · -- the sibling is rotated up, and the next round, at the new root of the subtree, is quiet
      rw [if_pos hhigh] at heven
      have hmake : frame.fill t = make frame.side.other frame.sibling frame.item t :=
        (make_other _ _ _ _).symm
      have hplace : Sorted (plug frames (make frame.side.other frame.sibling frame.item t)) := by
        rw [← hmake]
        exact hsorted
      obtain ⟨p, m, v, hturn, hlist, hnew⟩ := turn_eq hplace hsize hsibling ht hhigh
      rw [other_other] at hnew
      have hlopsided : ¬ Lopsided frame.side.other frame.sibling := by
        intro hlopsided
        rw [Lopsided, other_other] at hlopsided
        rw [if_pos hlopsided.1, Lopsided, other_other] at heven
        exact heven hlopsided
      obtain ⟨hbalanced, hnewHeight⟩ := hnew hlopsided
      obtain ⟨-, -, hle', hge'⟩ := balanced_make.mp hbalanced
      have hnewSorted := sorted_plug_congr hplace hlist.symm
      refine .turn hsorted hsize hhigh hturn hlist hle' hge' ?_
      by_cases hequal : (frame.sibling.child frame.side.other).height =
          (frame.sibling.child frame.side).height
      · rw [if_pos hequal] at hnewHeight
        refine rebalances_of_balanced hnewSorted hsize (balanced_plug.mpr ⟨hbalanced, ?_⟩)
          (by omega)
        rwa [hnewHeight, ← show max (t.height + 1) frame.sibling.height =
          frame.sibling.height by omega]
      · rw [if_neg hequal] at hnewHeight heven
        refine ih hnewSorted hbalanced ?_ ?_ (by omega)
        · rwa [hnewHeight, ← show max (t.height + 1) frame.sibling.height =
            frame.sibling.height by omega]
        · rwa [hnewHeight, hhigh]
    · rw [if_neg (by omega), if_pos hsame] at heven
      refine .cons hsorted hsize (by omega) (by omega) (ih hsorted ?_ ?_ ?_ (by omega))
      · exact balanced_make.mpr ⟨ht, hsibling, by omega, by omega⟩
      · rw [hfill, hsame, Nat.max_self]
        rwa [hsame, show max (t.height + 1) t.height = t.height + 1 by omega] at hhole
      · rwa [hfill, hsame, Nat.max_self]
    · refine .cons hsorted hsize (by omega) (by omega)
        (rebalances_of_balanced hsorted hsize (balanced_plug.mpr ⟨?_, ?_⟩) (by omega))
      · exact balanced_make.mpr ⟨ht, hsibling, by omega, by omega⟩
      · rwa [hfill, show max t.height frame.sibling.height =
          max (t.height + 1) frame.sibling.height by omega]

end AVLBalancedBinarySearchTree

end SLikeNet
