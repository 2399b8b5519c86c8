import SLikeNet.BalanceTree
import Mathlib.Data.List.Induction

/-! Runs of `AVLBalancedBinarySearchTree`: additions, deletions, and what the tree holds after
them. -/

namespace SLikeNet

open BinaryTree

namespace AVLBalancedBinarySearchTree

variable {α : Type*}

theorem leftmost_eq (frames : List (Frame α)) {t : BinaryTree α} (h : t.isNil = false) :
    ∃ path item right, leftmost frames t = (path, .node item .nil right) ∧
      plug path (.node item .nil right) = plug frames t ∧ before path = before frames := by
  induction t generalizing frames with
  | nil => cases h
  | node y l r ihl _ =>
    cases l with
    | nil => exact ⟨frames, y, r, by simp [leftmost], rfl, rfl⟩
    | node x a b =>
      obtain ⟨path, item, right, hleft, hplug, hbefore⟩ := ihl (⟨.left, y, r⟩ :: frames) rfl
      exact ⟨path, item, right, by rw [leftmost, hleft], hplug, hbefore⟩

variable [LinearOrder α] {size rounds : ℕ} {frames : List (Frame α)}

theorem WellFormed.length_eq {s : AVLBalancedBinarySearchTree α} {items : Finset α}
    (h : WellFormed s items) : s.root.toList.length = s.binarySearchTreeSize := by
  have hnodup : s.root.toList.Nodup := h.sorted.imp ne_of_lt
  rw [h.size_eq, ← h.members, List.toFinset_card_of_nodup hnodup]

theorem balanceTree_leaf (rounds : ℕ) {input : α}
    (hsorted : Sorted (plug frames (.node input .nil .nil)))
    (hsize : size ≠ 0) (hhole : Hole frames 0) (hrounds : frames.length ≤ rounds) :
    ∃ t, balanceTree size true (rounds + 1) (plug frames (.node input .nil .nil)) (some input) =
        some t ∧ t.toList = (plug frames (.node input .nil .nil)).toList ∧ t.Balanced := by
  have hplace : Sorted (plug frames (make .left .nil input .nil)) := hsorted
  have hround := balanceTree_quiet true rounds hplace hsize (Nat.zero_le _) (Nat.zero_le _)
  rw [goOn_place _ _ _ hplace] at hround
  have hleaf : (BinaryTree.node input .nil .nil).Balanced :=
    ⟨trivial, trivial, Nat.zero_le _, Nat.zero_le _⟩
  have hgrown : Rebalances size true rounds frames (.node input .nil .nil) :=
    rebalances_grown hsorted hsize hleaf rfl hhole (.inl rfl) hrounds
  obtain ⟨t, hrun, hlist, hbalanced⟩ := hgrown
  exact ⟨t, hround.trans hrun, hlist, hbalanced⟩

theorem wellFormed_empty : WellFormed (empty : AVLBalancedBinarySearchTree α) ∅ :=
  ⟨.nil, rfl, rfl, trivial⟩

theorem WellFormed.add {s : AVLBalancedBinarySearchTree α} {items : Finset α}
    (h : WellFormed s items) (input : α) :
    ∃ s', s.add input = some s' ∧ WellFormed s' (insert input items) := by
  have hlength := h.length_eq
  by_cases hempty : s.binarySearchTreeSize = 0
  · have hitems : items = ∅ := Finset.card_eq_zero.mp (h.size_eq.symm.trans hempty)
    have hleaf : Sorted (plug [] (.node input .nil .nil)) := List.pairwise_singleton _ _
    obtain ⟨t, hrun, hlist, hbalanced⟩ := balanceTree_leaf (2 * 1 + 1) hleaf one_ne_zero trivial
      (Nat.zero_le _)
    have hlist : t.toList = [input] := hlist
    refine ⟨⟨t, 1⟩, ?_, ?_, ?_, ?_, hbalanced⟩
    · rw [AVLBalancedBinarySearchTree.add, addNode, if_pos hempty]
      exact congrArg (Option.map fun root => (⟨root, 1⟩ : AVLBalancedBinarySearchTree α)) hrun
    · show t.toList.Pairwise (· < ·)
      rw [hlist]
      exact List.pairwise_singleton _ _
    · rw [hlist, hitems]
      rfl
    · rw [hitems]
      rfl
  obtain ⟨frames, place, hfind⟩ : ∃ frames place, find input [] s.root = (frames, place) :=
    ⟨_, _, rfl⟩
  have hplug : plug frames place = s.root := by
    have hsame := plug_find input [] s.root
    rwa [hfind] at hsame
  cases place with
  | nil =>
    have hadmits : ∀ frame ∈ frames, frame.Admits input := by
      have hall : ∀ frame ∈ (find input [] s.root).1, frame.Admits input :=
        admits_find (by simp) s.root
      rwa [hfind] at hall
    have hnew : input ∉ s.root.toList := not_mem_of_find h.sorted (by rw [hfind])
    have hold : s.root.toList = before frames ++ after frames := by
      rw [← hplug, toList_plug]
      simp [toList]
    have hlist : (plug frames (.node input .nil .nil)).toList =
        before frames ++ input :: after frames := by
      rw [toList_plug]
      simp [toList]
    have hsorted : Sorted (plug frames (.node input .nil .nil)) := by
      have hroot := h.sorted
      obtain ⟨hbefore, hafter⟩ := between_of_admits (by rw [hplug]; exact hroot) hadmits
      rw [Sorted, hold, List.pairwise_append] at hroot
      rw [Sorted, hlist, List.pairwise_append, List.pairwise_cons]
      refine ⟨hroot.1, ⟨hafter, hroot.2.1⟩, fun y hy z hz => ?_⟩
      rcases List.mem_cons.mp hz with rfl | hz
      · exact hbefore y hy
      · exact hroot.2.2 y hy z hz
    have hhole : Hole frames 0 := (balanced_plug.mp (by rw [hplug]; exact h.balanced)).2
    have hframes : frames.length ≤ s.binarySearchTreeSize := by
      rw [← hlength, ← hplug]
      exact length_le_plug frames .nil
    obtain ⟨t, hrun, hsame, hbalanced⟩ :=
      balanceTree_leaf (2 * (s.binarySearchTreeSize + 1) + 1) hsorted
        (Nat.succ_ne_zero s.binarySearchTreeSize) hhole (by omega)
    rw [hlist] at hsame
    refine ⟨⟨t, s.binarySearchTreeSize + 1⟩, ?_, ?_, ?_, ?_, hbalanced⟩
    · rw [AVLBalancedBinarySearchTree.add, addNode, if_neg hempty, hfind]
      exact congrArg (Option.map fun root => (⟨root, _⟩ : AVLBalancedBinarySearchTree α)) hrun
    · show t.toList.Pairwise (· < ·)
      rw [hsame, ← hlist]
      exact hsorted
    · ext y
      rw [← h.members, hsame, hold]
      simp
    · have hnot : input ∉ items := by
        rw [← h.members, List.mem_toFinset]
        exact hnew
      rw [Finset.card_insert_of_notMem hnot, h.size_eq]
  | node y l r =>
    have hfound : (find input [] s.root).2 = make .left l y r := congrArg Prod.snd hfind
    have hitem : y = input := item?_find hfound
    have hmem : input ∈ items := by
      rw [← h.members, List.mem_toFinset, ← hplug, toList_plug, hitem]
      simp [toList]
    refine ⟨s, ?_, ?_⟩
    · rw [AVLBalancedBinarySearchTree.add, addNode, if_neg hempty, hfind]
      rfl
    · rwa [Finset.insert_eq_of_mem hmem]

/-- What is taken out of a balanced tree: one item of the list, and a place where the tree got one
lower. -/
structure Removes (input : α) (root : BinaryTree α) (frames : List (Frame α))
    (t : BinaryTree α) : Prop where
  lists : ∃ as bs, root.toList = as ++ input :: bs ∧ (plug frames t).toList = as ++ bs
  balanced : t.Balanced
  hole : Hole frames (t.height + 1)

theorem removal_cases (input : α) {root : BinaryTree α} (hsorted : Sorted root)
    (hbalanced : root.Balanced) :
    removal input root = none ∧ input ∉ root.toList ∨
      ∃ frames t, removal input root = some (frames, t) ∧ Removes input root frames t := by
  obtain ⟨frames, place, hfind⟩ : ∃ frames place, find input [] root = (frames, place) :=
    ⟨_, _, rfl⟩
  have hplug : plug frames place = root := by
    have hsame := plug_find input [] root
    rwa [hfind] at hsame
  rw [removal, hfind]
  cases place with
  | nil => exact .inl ⟨rfl, not_mem_of_find hsorted (by rw [hfind])⟩
  | node y left right =>
    right
    have hfound : (find input [] root).2 = make .left left y right := congrArg Prod.snd hfind
    obtain rfl : y = input := item?_find hfound
    have hroot : root.toList =
        before frames ++ left.toList ++ y :: (right.toList ++ after frames) := by
      rw [← hplug, toList_plug]
      simp [toList]
    rw [← hplug] at hbalanced
    obtain ⟨⟨hleft, hright, hle, hge⟩, hhole⟩ := balanced_plug.mp hbalanced
    dsimp only
    cases left with
    | nil =>
      have hchild : Removes y root frames right := by
        refine ⟨⟨_, _, hroot, ?_⟩, hright, ?_⟩
        · rw [toList_plug]
          simp [toList]
        · simpa [height] using hhole
      cases right with
      | nil => exact ⟨frames, .nil, by simp [isNil], hchild⟩
      | node z c d => exact ⟨frames, .node z c d, by simp [isNil], hchild⟩
    | node x a b =>
      cases right with
      | nil =>
        refine ⟨frames, .node x a b, by simp [isNil], ⟨_, _, hroot, ?_⟩, hleft, ?_⟩
        · rw [toList_plug]
          simp [toList]
        · simpa [height] using hhole
      | node z c d =>
        obtain ⟨path, item, currentRight, hpath, hsame, hbefore⟩ :=
          leftmost_eq [] (t := .node z c d) rfl
        have hin : plug (path ++ ⟨.right, item, .node x a b⟩ :: frames)
            (.node item .nil currentRight) =
              plug frames (.node item (.node x a b) (.node z c d)) := by
          rw [plug_append, hsame]
          rfl
        have hinBalanced : (plug (path ++ ⟨.right, item, .node x a b⟩ :: frames)
            (.node item .nil currentRight)).Balanced := by
          rw [hin]
          exact balanced_plug.mpr ⟨⟨hleft, hright, hle, hge⟩, hhole⟩
        obtain ⟨⟨-, hcurrent, -, -⟩, hinHole⟩ := balanced_plug.mp hinBalanced
        refine ⟨path ++ ⟨.right, item, .node x a b⟩ :: frames, currentRight, ?_, ⟨_, _, hroot, ?_⟩,
          hcurrent, ?_⟩
        · simp [isNil, hpath]
        · have hrightList : (BinaryTree.node z c d).toList =
              item :: (currentRight.toList ++ after path) := by
            have hlist := congrArg toList hsame
            rw [toList_plug, hbefore] at hlist
            simpa [toList, before, plug] using hlist.symm
          rw [plug_append, plug, toList_plug, hrightList, Frame.fill, make]
          simp [toList, toList_plug, hbefore, before]
        · simpa [height] using hinHole

theorem WellFormed.del {s : AVLBalancedBinarySearchTree α} {items : Finset α}
    (h : WellFormed s items) {input : α} (hfine : Fine s (.del input)) :
    ∃ s', s.del input = some s' ∧ WellFormed s' (items.erase input) := by
  have hlength := h.length_eq
  by_cases hempty : s.binarySearchTreeSize = 0
  · have hitems : items = ∅ := Finset.card_eq_zero.mp (h.size_eq.symm.trans hempty)
    refine ⟨s, ?_, ?_⟩
    · rw [AVLBalancedBinarySearchTree.del, delNode, if_pos hempty]
      rfl
    · rw [hitems, Finset.erase_empty, ← hitems]
      exact h
  by_cases hone : s.binarySearchTreeSize = 1
  · have hroot := hfine.1 hone
    refine ⟨empty, ?_, ?_⟩
    · rw [AVLBalancedBinarySearchTree.del, delNode, if_neg hempty, if_pos hone]
      rfl
    · have hmem : input ∈ items := by
        rw [← h.members, List.mem_toFinset]
        cases hcases : s.root with
        | nil =>
          rw [hcases] at hroot
          cases hroot
        | node y l r =>
          rw [hcases] at hroot
          obtain rfl := Option.some.inj hroot
          simp [toList]
      have herase : items.erase input = ∅ := by
        rw [← Finset.card_eq_zero, Finset.card_erase_of_mem hmem, ← h.size_eq, hone]
      rw [herase]
      exact wellFormed_empty
  rcases removal_cases input h.sorted h.balanced with
    ⟨hnone, hnot⟩ | ⟨frames, t, hremoval, ⟨as, bs, hroot, hlist⟩, hbalanced, hhole⟩
  · refine ⟨s, ?_, ?_⟩
    · rw [AVLBalancedBinarySearchTree.del, delNode, if_neg hempty, if_neg hone, hnone]
      rfl
    · have hnot' : input ∉ items := by rwa [← h.members, List.mem_toFinset]
      rw [Finset.erase_eq_of_notMem hnot']
      exact h
  · have hsorted : Sorted (plug frames t) := by
      have hall := h.sorted
      rw [Sorted, hroot] at hall
      rw [Sorted, hlist]
      exact hall.sublist (List.Sublist.append_left (List.sublist_cons_self _ _) _)
    have hshorter : (plug frames t).toList.length + 1 = s.binarySearchTreeSize := by
      rw [← hlength, hroot, hlist, List.length_append, List.length_append, List.length_cons]
      omega
    have hframes := length_le_plug frames t
    have hrebalances : Rebalances (s.binarySearchTreeSize - 1) false
        (rounds (s.binarySearchTreeSize - 1)) frames t :=
      rebalances_shrunk hsorted (by omega) hbalanced hhole (hfine.2 hone _ hremoval)
        (by rw [rounds]; omega)
    obtain ⟨t', hrun, hsame, hbalanced'⟩ := hrebalances
    rw [hlist] at hsame
    have hmem : input ∈ items := by
      rw [← h.members, List.mem_toFinset, hroot]
      simp
    refine ⟨⟨t', s.binarySearchTreeSize - 1⟩, ?_, ?_, ?_, ?_, hbalanced'⟩
    · rw [AVLBalancedBinarySearchTree.del, delNode, if_neg hempty, if_neg hone, hremoval]
      exact congrArg (Option.map fun root => (⟨root, _⟩ : AVLBalancedBinarySearchTree α)) hrun
    · show t'.toList.Pairwise (· < ·)
      rw [hsame, ← hlist]
      exact hsorted
    · have hnodup : (as ++ input :: bs).Nodup := by
        rw [← hroot]
        exact h.sorted.imp ne_of_lt
      have hnot : input ∉ as ++ bs := by
        have hmiddle := List.nodup_middle.mp hnodup
        exact (List.nodup_cons.mp hmiddle).1
      ext y
      rw [Finset.mem_erase, ← h.members, List.mem_toFinset, List.mem_toFinset, hsame, hroot]
      simp only [List.mem_append, List.mem_cons] at hnot ⊢
      constructor
      · intro hy
        refine ⟨?_, by tauto⟩
        rintro rfl
        exact hnot hy
      · tauto
    · rw [Finset.card_erase_of_mem hmem, h.size_eq]

theorem run_concat (operations : List (Operation α)) (operation : Operation α) :
    run (operations ++ [operation]) = (run operations).bind fun s => s.perform operation := by
  simp [run]

theorem content_concat (operations : List (Operation α)) (operation : Operation α) :
    content (operations ++ [operation]) = match operation with
      | .add input => insert input (content operations)
      | .del input => (content operations).erase input := by
  cases operation <;> simp [content]

/-- In a run whose operations are fine every call ends without a null pointer that was followed,
and the tree is a balanced search tree of the items that were added and not deleted since. -/
theorem wellFormed_run (operations : List (Operation α))
    (h : ∀ earlier operation later s, operations = earlier ++ operation :: later →
      run earlier = some s → Fine s operation) :
    ∃ s, run operations = some s ∧ WellFormed s (content operations) := by
  induction operations using List.reverseRecOn with
  | nil => exact ⟨empty, rfl, wellFormed_empty⟩
  | append_singleton operations operation ih =>
    obtain ⟨s, hrun, hwell⟩ := ih fun earlier operation' later s heq =>
      h earlier operation' (later ++ [operation]) s (by rw [heq]; simp)
    have hfine := h operations operation [] s rfl hrun
    rw [run_concat, content_concat, hrun, Option.bind_some]
    cases operation with
    | add input => exact hwell.add input
    | del input => exact hwell.del hfine

/-- The only item is deleted. -/
theorem wellFormed_add_del :
    ∃ s, run [.add 5, .del (5 : ℕ)] = some s ∧
      WellFormed s (content [.add 5, .del (5 : ℕ)]) := by
  apply wellFormed_run
  intro earlier operation later s heq hrun
  rcases earlier with _ | ⟨first, _ | ⟨second, earlier⟩⟩
  · obtain rfl : operation = .add 5 := (List.head_eq_of_cons_eq heq).symm
    exact trivial
  · obtain ⟨rfl, hrest⟩ : first = .add 5 ∧ [.del 5] = operation :: later :=
      ⟨(List.head_eq_of_cons_eq heq).symm, List.tail_eq_of_cons_eq heq⟩
    obtain rfl : operation = .del 5 := (List.head_eq_of_cons_eq hrest).symm
    obtain rfl : (⟨.node 5 .nil .nil, 1⟩ : AVLBalancedBinarySearchTree ℕ) = s :=
      Option.some.inj hrun
    exact ⟨fun _ => rfl, fun hne => absurd rfl hne⟩
  · simp at heq

/-- Deleting an item that is not there, of a tree with one node. -/
theorem other_item_deleted :
    ¬ ∀ operations : List (Operation ℕ),
      ∃ s, run operations = some s ∧ WellFormed s (content operations) := by
  intro h
  obtain ⟨s, hrun, hwell⟩ := h [.add 5, .del 7]
  obtain rfl : empty = s := Option.some.inj hrun
  have hmembers := hwell.members
  revert hmembers
  decide

end AVLBalancedBinarySearchTree

end SLikeNet
