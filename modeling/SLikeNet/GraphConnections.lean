import SLikeNet.WeightedGraph

/-! What the operations of a weighted graph keep. -/

namespace SLikeNet

open SortedMap ShortestPaths

namespace WeightedGraph

variable {N : Type*}

theorem isValidPath_clearDijkstra (g : WeightedGraph N) : g.clearDijkstra.isValidPath = false := by
  rw [clearDijkstra]
  split
  · rfl
  · rename_i hvalid
    exact eq_false_of_ne_true hvalid

theorem adjacencyLists_clearDijkstra (g : WeightedGraph N) :
    g.clearDijkstra.adjacencyLists = g.adjacencyLists := by
  rw [clearDijkstra]
  split <;> rfl

variable [LinearOrder N]

/-- The lists are in order, and every connection is in the lists of both its nodes. -/
structure WellFormed (lists : List (N × List (N × ℕ))) : Prop where
  sorted : Sorted lists
  inner : ∀ x list, get? lists x = some list → Sorted list
  symm : ∀ x y w, Connected lists x y w → Connected lists y x w
  irrefl : ∀ x w, ¬ Connected lists x x w

variable {lists : List (N × List (N × ℕ))} {x y node node1 node2 : N} {w weight : ℕ}

theorem Connected.has (h : Connected lists x y w) : Has lists x := by
  obtain ⟨list, hget, -⟩ := h
  exact has_iff.mpr ⟨list, hget⟩

theorem WellFormed.has (h : WellFormed lists) (hconnected : Connected lists x y w) : Has lists y :=
  (h.symm x y w hconnected).has

theorem wellFormed_nil : WellFormed ([] : List (N × List (N × ℕ))) := by
  have hnone : ∀ x y w, ¬ Connected ([] : List (N × List (N × ℕ))) x y w := by
    rintro x y w ⟨list, hget, -⟩
    cases hget
  exact ⟨.nil, fun x list hget => (by cases hget), fun x y w h => absurd h (hnone x y w),
    fun x w => hnone x x w⟩

theorem connected_set {list : List (N × ℕ)} :
    Connected (set lists node list) x y w ↔
      if x = node then get? list y = some w else Connected lists x y w := by
  rw [Connected, get?_set]
  by_cases hx : x = node
  · simp [hx]
  · simp only [hx, if_false]
    rfl

theorem WellFormed.addNode {g : WeightedGraph N} (h : WellFormed g.adjacencyLists) (node : N) :
    WellFormed (g.addNode node).adjacencyLists := by
  rw [WeightedGraph.addNode]
  dsimp only
  split
  · exact h
  · rename_i hnew
    have hold : ∀ x y w, Connected (set g.adjacencyLists node []) x y w ↔
        Connected g.adjacencyLists x y w := by
      intro x y w
      rw [connected_set]
      split
      · rename_i hx
        refine ⟨fun hnone => (by cases hnone), fun hconnected => absurd hconnected.has ?_⟩
        rwa [hx]
      · exact Iff.rfl
    refine ⟨h.sorted.set node [], fun x list hget => ?_, fun x y w => ?_, fun x w => ?_⟩
    · rw [get?_set] at hget
      split at hget
      · obtain rfl := Option.some.inj hget
        exact .nil
      · exact h.inner x list hget
    · rw [hold, hold]
      exact h.symm x y w
    · rw [hold]
      exact h.irrefl x w

theorem has_addNode {g : WeightedGraph N} :
    Has (g.addNode node).adjacencyLists x ↔ x = node ∨ Has g.adjacencyLists x := by
  rw [addNode]
  dsimp only
  split
  · rename_i hnode
    refine ⟨.inr, ?_⟩
    rintro (rfl | hx)
    · exact hnode
    · exact hx
  · exact has_set

theorem has_setWeight {g : WeightedGraph N} :
    Has (g.setWeight node1 node2 weight).adjacencyLists x ↔ Has g.adjacencyLists x := by
  rw [setWeight]
  dsimp only
  split
  · rename_i list hget
    rw [has_set]
    refine ⟨?_, .inr⟩
    rintro (rfl | hx)
    · exact has_iff.mpr ⟨list, hget⟩
    · exact hx
  · exact Iff.rfl

theorem connected_setWeight {g : WeightedGraph N} (hnode : Has g.adjacencyLists node1) :
    Connected (g.setWeight node1 node2 weight).adjacencyLists x y w ↔
      if x = node1 ∧ y = node2 then w = weight else Connected g.adjacencyLists x y w := by
  obtain ⟨list, hget⟩ := has_iff.mp hnode
  rw [setWeight]
  dsimp only
  rw [hget, connected_set, get?_set]
  by_cases hx : x = node1
  · subst hx
    rw [if_pos rfl]
    by_cases hy : y = node2
    · rw [if_pos hy, if_pos ⟨rfl, hy⟩, Option.some_inj, eq_comm]
    · rw [if_neg hy, if_neg fun h => hy h.2, Connected]
      simp [hget]
  · rw [if_neg hx, if_neg fun h => hx h.1]

theorem inner_setWeight {g : WeightedGraph N} (node1 node2 : N) (weight : ℕ)
    (hsorted : Sorted g.adjacencyLists)
    (hinner : ∀ x list, get? g.adjacencyLists x = some list → Sorted list) :
    Sorted (g.setWeight node1 node2 weight).adjacencyLists ∧
      ∀ x list, get? (g.setWeight node1 node2 weight).adjacencyLists x = some list →
        Sorted list := by
  rw [setWeight]
  dsimp only
  split
  · rename_i old hget
    refine ⟨hsorted.set _ _, fun x list hlist => ?_⟩
    rw [get?_set] at hlist
    split at hlist
    · obtain rfl := Option.some.inj hlist
      exact (hinner node1 old hget).set _ _
    · exact hinner x list hlist
  · exact ⟨hsorted, hinner⟩

theorem WellFormed.addConnection {g : WeightedGraph N} (h : WellFormed g.adjacencyLists)
    (node1 node2 : N) (weight : ℕ) :
    WellFormed (g.addConnection node1 node2 weight).adjacencyLists := by
  rw [WeightedGraph.addConnection]
  split
  · exact h
  rename_i hne
  dsimp only
  -- the nodes may be put in before the weights are set
  obtain ⟨g1, hg1, hwell1, hhas1⟩ : ∃ g1, (if Has g.adjacencyLists node1 then g
      else g.addNode node1) = g1 ∧ WellFormed g1.adjacencyLists ∧ Has g1.adjacencyLists node1 := by
    refine ⟨_, rfl, ?_⟩
    split
    · rename_i hhas
      exact ⟨h, hhas⟩
    · exact ⟨h.addNode node1, has_addNode.mpr (.inl rfl)⟩
  rw [hg1]
  obtain ⟨hsorted2, hinner2⟩ := inner_setWeight node1 node2 weight hwell1.sorted
    hwell1.inner
  have hconnected2 : ∀ x y w, Connected (g1.setWeight node1 node2 weight).adjacencyLists x y w ↔
      if x = node1 ∧ y = node2 then w = weight else Connected g1.adjacencyLists x y w :=
    fun x y w => connected_setWeight hhas1
  have hhas2 : Has (g1.setWeight node1 node2 weight).adjacencyLists node1 :=
    has_setWeight.mpr hhas1
  generalize hg2 : g1.setWeight node1 node2 weight = g2 at *
  obtain ⟨g3, hg3, hsorted3, hinner3, hconnected3, hhas3⟩ : ∃ g3, (if Has g2.adjacencyLists node2
      then g2 else g2.addNode node2) = g3 ∧ Sorted g3.adjacencyLists ∧
        (∀ x list, get? g3.adjacencyLists x = some list → Sorted list) ∧
        (∀ x y w, Connected g3.adjacencyLists x y w ↔ Connected g2.adjacencyLists x y w) ∧
        Has g3.adjacencyLists node2 := by
    refine ⟨_, rfl, ?_⟩
    split
    · rename_i hhas
      exact ⟨hsorted2, hinner2, fun _ _ _ => Iff.rfl, hhas⟩
    · rename_i hnew
      refine ⟨?_, ?_, ?_, has_addNode.mpr (.inl rfl)⟩
      all_goals rw [WeightedGraph.addNode]
      all_goals dsimp only
      all_goals rw [if_neg hnew]
      · exact hsorted2.set _ _
      · intro x list hget
        rw [get?_set] at hget
        split at hget
        · obtain rfl := Option.some.inj hget
          exact .nil
        · exact hinner2 x list hget
      · intro x y w
        rw [connected_set]
        split
        · rename_i hx
          refine ⟨fun hnone => (by cases hnone), fun hconnected => absurd hconnected.has ?_⟩
          rwa [hx]
        · exact Iff.rfl
  rw [hg3]
  obtain ⟨hsorted4, hinner4⟩ := inner_setWeight node2 node1 weight hsorted3 hinner3
  have hconnected4 : ∀ x y w, Connected (g3.setWeight node2 node1 weight).adjacencyLists x y w ↔
      if x = node2 ∧ y = node1 then w = weight
      else if x = node1 ∧ y = node2 then w = weight else Connected g1.adjacencyLists x y w := by
    intro x y w
    rw [connected_setWeight hhas3, hconnected3, hconnected2]
  refine ⟨hsorted4, hinner4, fun x y w => ?_, fun x w => ?_⟩
  · rw [hconnected4, hconnected4]
    have hsymm := hwell1.symm x y w
    split <;> split <;> (try split) <;> (try split) <;> tauto
  · rw [hconnected4]
    have hirrefl := hwell1.irrefl x w
    split
    · rename_i heq
      exact absurd (heq.2.symm.trans heq.1) hne
    · split
      · rename_i heq
        exact absurd (heq.1.symm.trans heq.2) hne
      · exact hirrefl

/-! ### Nodes and connections are removed -/

/-- The lists without one, and without another node in those that stay. -/
def without (lists : List (N × List (N × ℕ))) (key node : N) : List (N × List (N × ℕ)) :=
  (delete lists key).map fun entry => (entry.1, delete entry.2 node)

theorem get?_map (lists : List (N × List (N × ℕ))) (node x : N) :
    get? (lists.map fun entry => (entry.1, delete entry.2 node)) x =
      (get? lists x).map fun list => delete list node := by
  induction lists with
  | nil => rfl
  | cons entry lists ih =>
    rw [List.map_cons, get?, get?, ih]
    split <;> rfl

theorem get?_without (lists : List (N × List (N × ℕ))) (key node x : N) :
    get? (without lists key node) x =
      if x = key then none else (get? lists x).map fun list => delete list node := by
  rw [without, get?_map, get?_delete]
  split <;> rfl

theorem connected_without {key : N} :
    Connected (without lists key node) x y w ↔
      x ≠ key ∧ y ≠ node ∧ Connected lists x y w := by
  rw [Connected, get?_without]
  by_cases hx : x = key
  · simp [hx]
  rw [if_neg hx]
  constructor
  · rintro ⟨list, hget, hw⟩
    obtain ⟨old, hold, rfl⟩ := Option.map_eq_some_iff.mp hget
    rw [get?_delete] at hw
    split at hw
    · cases hw
    · rename_i hy
      exact ⟨hx, hy, old, hold, hw⟩
  · rintro ⟨-, hy, old, hold, hw⟩
    refine ⟨_, Option.map_eq_some_iff.mpr ⟨old, hold, rfl⟩, ?_⟩
    rw [get?_delete, if_neg hy]
    exact hw

theorem has_without {key : N} :
    Has (without lists key node) x ↔ x ≠ key ∧ Has lists x := by
  rw [has_iff, has_iff, get?_without]
  by_cases hx : x = key
  · simp [hx]
  · simp [hx]

/-- A node without connections. -/
def Unlinked (lists : List (N × List (N × ℕ))) (x : N) : Prop := ∀ y w, ¬ Connected lists x y w

theorem WellFormed.without (h : WellFormed lists) {key : N}
    (hkey : key = node ∨ Unlinked lists key ∧ ¬ Has lists node) :
    WellFormed (without lists key node) := by
  refine ⟨?_, fun x list hget => ?_, fun x y w => ?_, fun x w => ?_⟩
  · rw [Sorted, WeightedGraph.without, List.map_map]
    exact h.sorted.delete key
  · rw [get?_without] at hget
    split at hget
    · cases hget
    · obtain ⟨old, hold, rfl⟩ := Option.map_eq_some_iff.mp hget
      exact (h.inner x old hold).delete node
  · rw [connected_without, connected_without]
    rintro ⟨hx, hy, hconnected⟩
    have hback := h.symm x y w hconnected
    rcases hkey with rfl | ⟨hunlinked, hnode⟩
    · exact ⟨hy, hx, hback⟩
    · refine ⟨?_, ?_, hback⟩
      · rintro rfl
        exact hunlinked x w hback
      · rintro rfl
        exact hnode hconnected.has
  · rw [connected_without]
    exact fun hconnected => h.irrefl x w hconnected.2.2

/-- The nodes whose lists are empty. -/
def unlinkedNodes (lists : List (N × List (N × ℕ))) : List N :=
  (lists.filter fun entry => entry.2.length = 0).map Prod.fst

theorem mem_unlinkedNodes (hsorted : Sorted lists) :
    x ∈ unlinkedNodes lists ↔ Has lists x ∧ Unlinked lists x := by
  simp only [unlinkedNodes, List.mem_map, List.mem_filter, decide_eq_true_eq]
  constructor
  · rintro ⟨⟨x, list⟩, ⟨hmem, hempty⟩, rfl⟩
    have hget := hsorted.get?_of_mem hmem
    refine ⟨has_iff.mpr ⟨list, hget⟩, ?_⟩
    rintro y w ⟨list', hget', hw⟩
    obtain rfl := Option.some.inj (hget.symm.trans hget')
    have hempty : list.length = 0 := hempty
    rw [List.length_eq_zero_iff.mp hempty] at hw
    cases hw
  · rintro ⟨hhas, hunlinked⟩
    obtain ⟨list, hget⟩ := has_iff.mp hhas
    refine ⟨(x, list), ⟨mem_of_get? hget, ?_⟩, rfl⟩
    cases list with
    | nil => rfl
    | cons entry list =>
      exact absurd ⟨entry :: list, hget, if_pos rfl⟩ (hunlinked entry.1 entry.2)

theorem nodup_unlinkedNodes (hsorted : Sorted lists) : (unlinkedNodes lists).Nodup :=
  hsorted.nodup.sublist (List.filter_sublist.map _)

/-- At most one other node is linked with no other one. -/
def FewUnlinked (lists : List (N × List (N × ℕ))) (node : N) : Prop :=
  ∀ x y, x ≠ node → y ≠ node → Has lists x → Has lists y →
    (∀ z w, Connected lists x z w → z = node) → (∀ z w, Connected lists y z w → z = node) → x = y

theorem removeNodeLoop_cons {allowUnlinkedNodes : Bool} {rounds : ℕ} {key : N} {queue : List N}
    (h : Has lists key) :
    removeNodeLoop allowUnlinkedNodes node (rounds + 1) (key :: queue) lists =
      removeNodeLoop allowUnlinkedNodes node rounds
        (queue ++ if allowUnlinkedNodes then [] else unlinkedNodes (without lists key node))
        (without lists key node) := by
  rw [removeNodeLoop, if_pos h]
  rfl

/-- After a removal there is no matrix, and where nodes without connections are not allowed there
are none. -/
structure Removed (allowUnlinkedNodes : Bool) (g : WeightedGraph N) : Prop where
  wellFormed : WellFormed g.adjacencyLists
  isValidPath : g.isValidPath = false
  linked : allowUnlinkedNodes = false →
    ∀ x, Has g.adjacencyLists x → ¬ Unlinked g.adjacencyLists x

theorem removed_clearDijkstra {allowUnlinkedNodes : Bool} {g : WeightedGraph N}
    (h : WellFormed lists) (hlinked : allowUnlinkedNodes = false → unlinkedNodes lists = []) :
    Removed allowUnlinkedNodes (clearDijkstra { g with adjacencyLists := lists }) := by
  refine ⟨?_, isValidPath_clearDijkstra _, fun hallow x => ?_⟩
  · rw [adjacencyLists_clearDijkstra]
    exact h
  · rw [adjacencyLists_clearDijkstra]
    intro hhas hunlinked
    have hmem : x ∈ unlinkedNodes lists := (mem_unlinkedNodes h.sorted).mpr ⟨hhas, hunlinked⟩
    rw [hlinked hallow] at hmem
    cases hmem

theorem exists_removeNode {g : WeightedGraph N} (h : WellFormed g.adjacencyLists)
    (hnode : Has g.adjacencyLists node) {allowUnlinkedNodes : Bool}
    (hfew : allowUnlinkedNodes = false → FewUnlinked g.adjacencyLists node) :
    ∃ g', g.removeNode allowUnlinkedNodes node = some g' ∧ Removed allowUnlinkedNodes g' := by
  have hfirst := h.without (.inl rfl : node = node ∨ _)
  obtain ⟨rounds, hrounds⟩ : ∃ rounds, g.adjacencyLists.length = rounds + 1 := by
    apply Nat.exists_eq_succ_of_ne_zero
    intro hzero
    rw [List.length_eq_zero_iff.mp hzero] at hnode
    cases hnode
  rw [removeNode, hrounds, removeNodeLoop_cons hnode, List.nil_append]
  cases allowUnlinkedNodes with
  | true =>
    rw [if_pos rfl, removeNodeLoop]
    exact ⟨_, rfl, removed_clearDijkstra hfirst fun hallow => by cases hallow⟩
  | false =>
    rw [if_neg Bool.false_ne_true]
    have hgone : ¬ Has (without g.adjacencyLists node node) node := by
      rw [has_without]
      exact fun hhas => hhas.1 rfl
    have hof : ∀ x ∈ unlinkedNodes (without g.adjacencyLists node node),
        x ≠ node ∧ Has g.adjacencyLists x ∧
          ∀ z w, Connected g.adjacencyLists x z w → z = node := by
      intro x hx
      obtain ⟨hhas, hunlinked⟩ := (mem_unlinkedNodes hfirst.sorted).mp hx
      rw [has_without] at hhas
      refine ⟨hhas.1, hhas.2, fun z w hconnected => ?_⟩
      by_contra hz
      exact hunlinked z w (connected_without.mpr ⟨hhas.1, hz, hconnected⟩)
    have hnodup := nodup_unlinkedNodes hfirst.sorted
    generalize hunlinkedNodes : unlinkedNodes (without g.adjacencyLists node node) = unlinked at *
    match unlinked, hnodup, hof, hunlinkedNodes with
    | [], _, _, hlist =>
      rw [removeNodeLoop]
      exact ⟨_, rfl, removed_clearDijkstra hfirst fun _ => hlist⟩
    | x :: y :: _, hnodup, hof, _ =>
      obtain ⟨hx, hxhas, hxonly⟩ := hof x (by simp)
      obtain ⟨hy, hyhas, hyonly⟩ := hof y (by simp)
      have hsame := hfew rfl x y hx hy hxhas hyhas hxonly hyonly
      rw [hsame] at hnodup
      simp at hnodup
    | [x], _, hof, hlist =>
      obtain ⟨hx, hxhas, hxonly⟩ := hof x (by simp)
      have hmem : x ∈ unlinkedNodes (without g.adjacencyLists node node) := by
        rw [hlist]
        simp
      obtain ⟨hhas, hunlinked⟩ := (mem_unlinkedNodes hfirst.sorted).mp hmem
      have hsecond := hfirst.without (.inr ⟨hunlinked, hgone⟩ : x = node ∨ _)
      obtain ⟨rest, rfl⟩ : ∃ rest, rounds = rest + 1 := by
        apply Nat.exists_eq_succ_of_ne_zero
        rintro rfl
        obtain ⟨entry, hentry⟩ := List.length_eq_one_iff.mp hrounds
        rw [hentry] at hnode hxhas
        simp only [Has, List.map_cons, List.map_nil, List.mem_singleton] at hnode hxhas
        exact hx (hxhas.trans hnode.symm)
      have hnone : unlinkedNodes (without (without g.adjacencyLists node node) x node) = [] := by
        rw [List.eq_nil_iff_forall_not_mem]
        intro z hz
        obtain ⟨hzhas, hzunlinked⟩ := (mem_unlinkedNodes hsecond.sorted).mp hz
        rw [has_without] at hzhas
        have hzmem : z ∈ unlinkedNodes (without g.adjacencyLists node node) := by
          refine (mem_unlinkedNodes hfirst.sorted).mpr ⟨hzhas.2, fun y w hconnected => ?_⟩
          refine hzunlinked y w (connected_without.mpr ⟨hzhas.1, ?_, hconnected⟩)
          rintro rfl
          exact hgone (hfirst.has hconnected)
        rw [hlist, List.mem_singleton] at hzmem
        exact hzhas.1 hzmem
      rw [removeNodeLoop_cons hhas, if_neg Bool.false_ne_true, hnone, List.nil_append,
        removeNodeLoop]
      exact ⟨_, rfl, removed_clearDijkstra hsecond fun _ => hnone⟩

/-- All connections of a node are between these two. -/
def OnlyBetween (lists : List (N × List (N × ℕ))) (node1 node2 x : N) : Prop :=
  ∀ z w, Connected lists x z w → x = node1 ∧ z = node2 ∨ x = node2 ∧ z = node1

/-- If one of the two nodes is left without a connection, at most one other node has none then. -/
def LeavesFew (lists : List (N × List (N × ℕ))) (node1 node2 : N) : Prop :=
  ∀ k, k = node1 ∨ k = node2 → OnlyBetween lists node1 node2 k → ∀ x y, x ≠ k → y ≠ k →
    Has lists x → Has lists y → OnlyBetween lists node1 node2 x →
      OnlyBetween lists node1 node2 y → x = y

theorem exists_deleteFrom {g : WeightedGraph N} (hsorted : Sorted g.adjacencyLists)
    (hinner : ∀ x list, get? g.adjacencyLists x = some list → Sorted list)
    (hnode : Has g.adjacencyLists node1) (node2 : N) :
    ∃ g', g.deleteFrom node1 node2 = some g' ∧ Sorted g'.adjacencyLists ∧
      (∀ x list, get? g'.adjacencyLists x = some list → Sorted list) ∧
      (∀ x, Has g'.adjacencyLists x ↔ Has g.adjacencyLists x) ∧
      ∀ x y w, Connected g'.adjacencyLists x y w ↔
        ¬ (x = node1 ∧ y = node2) ∧ Connected g.adjacencyLists x y w := by
  obtain ⟨old, hold⟩ := has_iff.mp hnode
  refine ⟨_, by rw [deleteFrom, hold]; rfl, hsorted.set _ _, fun x list hget => ?_, fun x => ?_,
    fun x y w => ?_⟩
  · rw [get?_set] at hget
    split at hget
    · obtain rfl := Option.some.inj hget
      exact (hinner node1 old hold).delete node2
    · exact hinner x list hget
  · rw [has_set]
    refine ⟨?_, .inr⟩
    rintro (rfl | hx)
    · exact hnode
    · exact hx
  · rw [connected_set]
    by_cases hx : x = node1
    · subst hx
      rw [if_pos rfl, get?_delete, Connected, hold]
      by_cases hy : y = node2
      · simp [hy]
      · simp [hy]
    · simp [hx]

theorem exists_removeConnection {g : WeightedGraph N} (h : WellFormed g.adjacencyLists)
    (hconnected : Connected g.adjacencyLists node1 node2 weight) {allowUnlinkedNodes : Bool}
    (hfew : allowUnlinkedNodes = false → LeavesFew g.adjacencyLists node1 node2) :
    ∃ g', g.removeConnection allowUnlinkedNodes node1 node2 = some g' ∧
      WellFormed g'.adjacencyLists ∧ g'.isValidPath = false := by
  obtain ⟨g1, hg1, hsorted1, hinner1, hhas1, hconnected1⟩ :=
    exists_deleteFrom h.sorted h.inner (h.has hconnected) node1
  obtain ⟨g2, hg2, hsorted2, hinner2, hhas2, hconnected2⟩ :=
    exists_deleteFrom hsorted1 hinner1 ((hhas1 node1).mpr hconnected.has) node2
  have hleft : ∀ x y w, Connected g2.adjacencyLists x y w ↔
      ¬ (x = node1 ∧ y = node2) ∧ ¬ (x = node2 ∧ y = node1) ∧ Connected g.adjacencyLists x y w := by
    intro x y w
    rw [hconnected2, hconnected1]
  have hwell2 : WellFormed g2.adjacencyLists := by
    refine ⟨hsorted2, hinner2, fun x y w => ?_, fun x w => ?_⟩
    · rw [hleft, hleft]
      have hsymm := h.symm x y w
      tauto
    · rw [hleft]
      exact fun hself => h.irrefl x w hself.2.2
  have hunlinked : ∀ x, Unlinked g2.adjacencyLists x →
      OnlyBetween g.adjacencyLists node1 node2 x := by
    intro x hx z w hz
    by_contra hnot
    exact hx z w ((hleft x z w).mpr ⟨fun heq => hnot (.inl heq), fun heq => hnot (.inr heq), hz⟩)
  have hfew2 : ∀ k, k = node1 ∨ k = node2 → Unlinked g2.adjacencyLists k →
      allowUnlinkedNodes = false → FewUnlinked g2.adjacencyLists k := by
    intro k hk hkUnlinked hallow x y hx hy hhasx hhasy honlyx honlyy
    have hof : ∀ x, (∀ z w, Connected g2.adjacencyLists x z w → z = k) →
        Unlinked g2.adjacencyLists x := by
      intro x honly z w hz
      obtain rfl := honly z w hz
      exact hkUnlinked x w (hwell2.symm x z w hz)
    refine hfew hallow k hk (hunlinked k hkUnlinked) x y hx hy ?_ ?_
      (hunlinked x (hof x honlyx)) (hunlinked y (hof y honlyy))
    · exact (hhas1 x).mp ((hhas2 x).mp hhasx)
    · exact (hhas1 y).mp ((hhas2 y).mp hhasy)
  have hhasNode1 : Has g2.adjacencyLists node1 :=
    (hhas2 node1).mpr ((hhas1 node1).mpr hconnected.has)
  obtain ⟨list1, hlist1⟩ := has_iff.mp hhasNode1
  have hempty : ∀ {g : WeightedGraph N} {x : N} {list : List (N × ℕ)},
      get? g.adjacencyLists x = some list → list.length = 0 → Unlinked g.adjacencyLists x := by
    rintro g x list hget hzero y w ⟨list', hget', hw⟩
    obtain rfl := Option.some.inj (hget.symm.trans hget')
    rw [List.length_eq_zero_iff.mp hzero] at hw
    cases hw
  have hclear : ∀ {g : WeightedGraph N}, WellFormed g.adjacencyLists →
      WellFormed g.clearDijkstra.adjacencyLists ∧ g.clearDijkstra.isValidPath = false := by
    intro g hwell
    rw [adjacencyLists_clearDijkstra]
    exact ⟨hwell, isValidPath_clearDijkstra g⟩
  simp only [removeConnection, hg1, hg2, hlist1, Option.bind_eq_bind, Option.bind_some]
  cases allowUnlinkedNodes with
  | true => exact ⟨_, rfl, hclear hwell2⟩
  | false =>
    rw [if_neg Bool.false_ne_true]
    by_cases hfirst : list1.length = 0
    · -- with the first node every node without connections has been removed
      obtain ⟨g3, hg3, hremoved⟩ := exists_removeNode hwell2 hhasNode1
        (hfew2 node1 (.inl rfl) (hempty hlist1 hfirst))
      rw [if_pos hfirst, hg3, Option.bind_some]
      cases hlist2 : get? g3.adjacencyLists node2 with
      | none => exact ⟨_, rfl, hclear hremoved.wellFormed⟩
      | some list2 =>
        have hsecond : list2.length ≠ 0 := fun hzero =>
          hremoved.linked rfl node2 (has_iff.mpr ⟨list2, hlist2⟩) (hempty hlist2 hzero)
        dsimp only
        rw [if_neg hsecond]
        exact ⟨_, rfl, hclear hremoved.wellFormed⟩
    · rw [if_neg hfirst]
      cases hlist2 : get? g2.adjacencyLists node2 with
      | none => exact ⟨_, rfl, hclear hwell2⟩
      | some list2 =>
        dsimp only
        by_cases hsecond : list2.length = 0
        · obtain ⟨g3, hg3, hremoved⟩ := exists_removeNode hwell2
            (has_iff.mpr ⟨list2, hlist2⟩) (hfew2 node2 (.inr rfl) (hempty hlist2 hsecond))
          rw [if_pos hsecond, hg3]
          exact ⟨_, rfl, hclear hremoved.wellFormed⟩
        · rw [if_neg hsecond]
          exact ⟨_, rfl, hclear hwell2⟩

end WeightedGraph

end SLikeNet
