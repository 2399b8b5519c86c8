import SLikeNet.GraphConnections
import Mathlib.Data.Finset.Card

/-! The cost matrix of a start node, and that the paths that are read from it are shortest. -/

namespace SLikeNet

open SortedMap ShortestPaths

namespace WeightedGraph

variable {N : Type*}

/-! ### The open set -/

theorem pushAll_spec (openSet : List (N × ℕ)) {minHeap : Heap ℕ N false}
    (hordered : minHeap.Ordered) :
    (openSet.foldl (fun (minHeap : Heap ℕ N false) entry => minHeap.push entry.2 entry.1)
        minHeap).Ordered ∧
      (openSet.foldl (fun (minHeap : Heap ℕ N false) entry => minHeap.push entry.2 entry.1)
        minHeap).heap.Perm
          (openSet.map (fun entry => ⟨entry.2, entry.1⟩) ++ minHeap.heap) := by
  induction openSet generalizing minHeap with
  | nil => exact ⟨hordered, .refl _⟩
  | cons entry openSet ih =>
    obtain ⟨hrest, hperm⟩ := ih (hordered.push entry.2 entry.1)
    refine ⟨hrest, hperm.trans ?_⟩
    have hpush := (minHeap.push_perm entry.2 entry.1).append_left
      (openSet.map fun entry => (⟨entry.2, entry.1⟩ : HeapNode ℕ N))
    exact hpush.trans List.perm_middle

theorem lowest_cases (openSet : List (N × ℕ)) :
    openSet = [] ∧ lowest openSet = none ∨
      ∃ weight node, lowest openSet = some (weight, node) ∧ (node, weight) ∈ openSet ∧
        ∀ entry ∈ openSet, weight ≤ entry.2 := by
  have hempty : (Heap.empty : Heap ℕ N false).Ordered := HeapOrder.Ordered.nil
  obtain ⟨hordered, hperm⟩ := pushAll_spec openSet hempty
  rw [lowest]
  generalize openSet.foldl (fun (minHeap : Heap ℕ N false) entry =>
    minHeap.push entry.2 entry.1) Heap.empty = minHeap at *
  have hmem : ∀ node, node ∈ minHeap.heap ↔ (node.data, node.weight) ∈ openSet := by
    intro node
    rw [hperm.mem_iff]
    simp only [Heap.empty, List.append_nil, List.mem_map, Prod.exists]
    constructor
    · rintro ⟨a, b, hab, rfl⟩
      exact hab
    · intro hnode
      exact ⟨_, _, hnode, rfl⟩
  cases hhead : minHeap.heap.head? with
  | none =>
    left
    have hnil := List.head?_eq_none_iff.mp hhead
    refine ⟨List.eq_nil_iff_forall_not_mem.mpr fun entry hentry => ?_, ?_⟩
    · have hin := (hmem ⟨entry.2, entry.1⟩).mpr hentry
      rw [hnil] at hin
      cases hin
    · rw [Heap.peekWeight, hhead]
      rfl
  | some top =>
    right
    obtain ⟨rest, hpop, -⟩ := Heap.pop_eq hhead
    refine ⟨top.weight, top.data, ?_, ?_, fun entry hentry => ?_⟩
    · rw [Heap.peekWeight, hhead, hpop]
      rfl
    · exact (hmem top).mp (List.mem_of_mem_head? hhead)
    · have hle := hordered.head_le hhead ((hmem ⟨entry.2, entry.1⟩).mpr hentry)
      simpa [Heap.nodeLe, Heap.before] using hle

variable [LinearOrder N]

/-! ### The matrix -/

/-- From a row on the matrix has these costs. -/
def Shows (keys : List N) (costMatrix : ℕ → ℕ) (fromRow : ℕ) (cost : N → ℕ) : Prop :=
  ∀ row, fromRow ≤ row → row < keys.length → ∀ v ∈ keys,
    costMatrix (row * keys.length + indexAtKey keys v) = cost v

theorem div_index {keys : List N} {v : N} (hv : v ∈ keys) (row : ℕ) :
    (row * keys.length + indexAtKey keys v) / keys.length = row := by
  have hlt : indexAtKey keys v < keys.length := List.idxOf_lt_length_of_mem hv
  rw [Nat.add_comm, Nat.add_mul_div_right _ _ (by omega), Nat.div_eq_of_lt hlt, Nat.zero_add]

theorem setColumn_index {keys : List N} {u v : N} (hv : v ∈ keys) {row : ℕ}
    (hrow : row < keys.length) (fromRow value : ℕ) (costMatrix : ℕ → ℕ) :
    setColumn keys.length (indexAtKey keys u) fromRow value costMatrix
        (row * keys.length + indexAtKey keys v) =
      if fromRow ≤ row ∧ v = u then value
      else costMatrix (row * keys.length + indexAtKey keys v) := by
  have hlt : indexAtKey keys v < keys.length := List.idxOf_lt_length_of_mem hv
  have hmod : (row * keys.length + indexAtKey keys v) % keys.length = indexAtKey keys v := by
    rw [Nat.add_comm, Nat.add_mul_mod_self_right, Nat.mod_eq_of_lt hlt]
  rw [setColumn, div_index hv, hmod]
  congr 1
  refine propext (and_congr_right' ⟨fun h => ?_, fun h => ⟨hrow, by rw [h]⟩⟩)
  exact (List.idxOf_inj hv).mp h.2

/-- The open set has the nodes with a cost that were not taken. -/
structure Opens (openSet : List (N × ℕ)) (infinite : ℕ) (isTaken : N → Prop) (cost : N → ℕ) :
    Prop where
  sorted : Sorted openSet
  get?_iff : ∀ v w, get? openSet v = some w ↔ ¬ isTaken v ∧ cost v < infinite ∧ w = cost v

theorem relax_of_lt {keys : List N} {row d w : ℕ} {v : N} {costMatrix : ℕ → ℕ}
    {openSet : List (N × ℕ)}
    (h : d + w < costMatrix (row * keys.length + indexAtKey keys v)) :
    relax keys row d (costMatrix, openSet) (v, w) =
      (setColumn keys.length (indexAtKey keys v) row (d + w) costMatrix, set openSet v (d + w)) :=
  if_pos h

theorem relax_of_le {keys : List N} {row d w : ℕ} {v : N} {costMatrix : ℕ → ℕ}
    {openSet : List (N × ℕ)}
    (h : costMatrix (row * keys.length + indexAtKey keys v) ≤ d + w) :
    relax keys row d (costMatrix, openSet) (v, w) = (costMatrix, openSet) :=
  if_neg (Nat.not_lt_of_le h)

theorem relax_foldl {keys : List N} {entries : List (N × ℕ)} {row d infinite : ℕ}
    {costMatrix : ℕ → ℕ} {openSet : List (N × ℕ)} {cost : N → ℕ} {isTaken : N → Prop}
    (hentries : Sorted entries) (hkeys : ∀ entry ∈ entries, entry.1 ∈ keys)
    (hrow : row < keys.length) (hshows : Shows keys costMatrix row cost)
    (hopens : Opens openSet infinite isTaken cost) (htaken : ∀ v, isTaken v → cost v ≤ d)
    (hinfinite : ∀ v, cost v ≤ infinite) :
    ∃ cost', Shows keys (entries.foldl (relax keys row d) (costMatrix, openSet)).1 row cost' ∧
      Opens (entries.foldl (relax keys row d) (costMatrix, openSet)).2 infinite isTaken cost' ∧
      (∀ v w, (v, w) ∈ entries → cost' v = min (cost v) (d + w)) ∧
      (∀ v, v ∉ entries.map Prod.fst → cost' v = cost v) ∧
      ∀ i, i / keys.length < row →
        (entries.foldl (relax keys row d) (costMatrix, openSet)).1 i = costMatrix i := by
  induction entries generalizing costMatrix openSet cost with
  | nil =>
    exact ⟨cost, hshows, hopens, fun v w h => absurd h List.not_mem_nil, fun _ _ => rfl,
      fun _ _ => rfl⟩
  | cons entry entries ih =>
    obtain ⟨k, w⟩ := entry
    obtain ⟨hhead, htail⟩ := List.pairwise_cons.mp hentries
    have hk : k ∈ keys := hkeys (k, w) List.mem_cons_self
    have hknew : k ∉ entries.map Prod.fst := fun hmem => lt_irrefl k (hhead k hmem)
    have hcell : costMatrix (row * keys.length + indexAtKey keys k) = cost k :=
      hshows row (Nat.le_refl _) hrow k hk
    have hkeys' : ∀ entry ∈ entries, entry.1 ∈ keys := fun entry hentry =>
      hkeys entry (List.mem_cons_of_mem _ hentry)
    rw [List.foldl_cons]
    by_cases hless : d + w < cost k
    · have hnot : ¬ isTaken k := fun h => by
        have hle := htaken k h
        omega
      have hshows1 : Shows keys (setColumn keys.length (indexAtKey keys k) row (d + w) costMatrix)
          row (Function.update cost k (d + w)) := by
        intro row' hle hlt v hv
        rw [setColumn_index hv hlt]
        by_cases heq : v = k
        · subst heq
          rw [if_pos ⟨hle, rfl⟩, Function.update_self]
        · rw [if_neg (fun h => heq h.2), Function.update_of_ne heq]
          exact hshows row' hle hlt v hv
      have hopens1 : Opens (set openSet k (d + w)) infinite isTaken
          (Function.update cost k (d + w)) := by
        refine ⟨hopens.sorted.set _ _, fun v w' => ?_⟩
        rw [get?_set]
        by_cases heq : v = k
        · subst heq
          have hle := hinfinite v
          rw [if_pos rfl, Function.update_self, Option.some_inj]
          exact ⟨fun h => ⟨hnot, by omega, h.symm⟩, fun h => h.2.2.symm⟩
        · rw [if_neg heq, Function.update_of_ne heq]
          exact hopens.get?_iff v w'
      have htaken1 : ∀ v, isTaken v → Function.update cost k (d + w) v ≤ d := by
        intro v hv
        have hne : v ≠ k := by
          rintro rfl
          exact hnot hv
        rw [Function.update_of_ne hne]
        exact htaken v hv
      have hinfinite1 : ∀ v, Function.update cost k (d + w) v ≤ infinite := by
        intro v
        by_cases heq : v = k
        · subst heq
          rw [Function.update_self]
          exact hless.le.trans (hinfinite v)
        · rw [Function.update_of_ne heq]
          exact hinfinite v
      obtain ⟨cost', hshows', hopens', hin, hout, hrows⟩ :=
        ih htail hkeys' hshows1 hopens1 htaken1 hinfinite1
      rw [relax_of_lt (by rw [hcell]; exact hless)]
      refine ⟨cost', hshows', hopens', fun v w' hv => ?_, fun v hv => ?_, fun i hi => ?_⟩
      · rcases List.mem_cons.mp hv with heq | hv
        · obtain ⟨rfl, rfl⟩ := Prod.mk.inj heq
          rw [hout v hknew, Function.update_self, Nat.min_eq_right hless.le]
        · have hmem : v ∈ entries.map Prod.fst := List.mem_map_of_mem hv
          have hne : v ≠ k := by
            rintro rfl
            exact hknew hmem
          rw [hin v w' hv, Function.update_of_ne hne]
      · rw [List.map_cons, List.mem_cons, not_or] at hv
        rw [hout v hv.2, Function.update_of_ne hv.1]
      · rw [hrows i hi, setColumn, if_neg (by omega)]
    · obtain ⟨cost', hshows', hopens', hin, hout, hrows⟩ :=
        ih htail hkeys' hshows hopens htaken hinfinite
      rw [relax_of_le (by rw [hcell]; exact Nat.le_of_not_lt hless)]
      refine ⟨cost', hshows', hopens', fun v w' hv => ?_, fun v hv => ?_, hrows⟩
      · rcases List.mem_cons.mp hv with heq | hv
        · obtain ⟨rfl, rfl⟩ := Prod.mk.inj heq
          rw [hout v hknew, Nat.min_eq_left (Nat.le_of_not_lt hless)]
        · exact hin v w' hv
      · rw [List.map_cons, List.mem_cons, not_or] at hv
        exact hout v hv.2

/-! ### The rounds of the matrix -/

/-- The matrix and the nodes of its rows are those of some rounds, and nothing is left that is
closer. -/
structure Made (lists : List (N × List (N × ℕ))) (start : N) (infinite count : ℕ)
    (cost : ℕ → N → ℕ) (taken : ℕ → N) (costMatrix : ℕ → ℕ) (leastNodeArray : ℕ → Option N) :
    Prop where
  rounds : Rounds (Connected lists) start infinite count cost taken
  count_pos : 2 ≤ lists.length → 0 < count
  count_le : count + 1 ≤ lists.length
  cells : ∀ i < lists.length, ∀ v ∈ lists.map Prod.fst,
    costMatrix (i * lists.length + indexAtKey (lists.map Prod.fst) v) = cost (min (i + 1) count) v
  least : ∀ i, i + 1 < count → leastNodeArray i = some (taken (i + 1))
  taken_mem : ∀ i < count, taken i ∈ lists.map Prod.fst
  last : ∀ x, (∀ k < count, taken k ≠ x) → ∀ y ∈ lists.map Prod.fst, cost count y ≤ cost count x

/-- The state at the head of the loop. -/
structure AtRow (lists : List (N × List (N × ℕ))) (start : N) (infinite row : ℕ)
    (cost : ℕ → N → ℕ) (taken : ℕ → N) (costMatrix : ℕ → ℕ) (leastNodeArray : ℕ → Option N)
    (openSet : List (N × ℕ)) : Prop where
  rounds : Rounds (Connected lists) start infinite row cost taken
  next : Next row cost taken (taken row)
  first : row = 0 → taken 0 = start
  cells : ∀ i < row, ∀ v ∈ lists.map Prod.fst,
    costMatrix (i * lists.length + indexAtKey (lists.map Prod.fst) v) = cost (i + 1) v
  shows : Shows (lists.map Prod.fst) costMatrix row (cost row)
  least : ∀ i < row, leastNodeArray i = some (taken (i + 1))
  taken_mem : ∀ i ≤ row, taken i ∈ lists.map Prod.fst
  opens : Opens openSet infinite (fun v => ∃ k ≤ row, taken k = v) (cost row)

variable {lists : List (N × List (N × ℕ))} {start : N} {infinite row : ℕ} {cost : ℕ → N → ℕ}
  {taken : ℕ → N} {costMatrix : ℕ → ℕ} {leastNodeArray : ℕ → Option N} {openSet : List (N × ℕ)}

theorem cost_of_not_mem (hwell : WellFormed lists) (hstart : start ∈ lists.map Prod.fst)
    {count : ℕ} (h : Rounds (Connected lists) start infinite count cost taken) {v : N}
    (hv : v ∉ lists.map Prod.fst) {j : ℕ} (hj : j ≤ count) : cost j v = infinite := by
  induction j with
  | zero =>
    apply h.init
    rintro rfl
    exact hv hstart
  | succ j ih =>
    rcases h.step j hj v with hsame | ⟨w, hedge, -⟩
    · rw [hsame, ih (Nat.le_of_succ_le hj)]
    · exact absurd (hwell.has hedge) hv

theorem last_of_full (hwell : WellFormed lists) (hstart : start ∈ lists.map Prod.fst)
    (h : AtRow lists start infinite row cost taken costMatrix leastNodeArray openSet)
    (hfull : row + 1 = lists.length) {x y : N} (hx : ∀ k < row, taken k ≠ x)
    (hy : y ∈ lists.map Prod.fst) : cost row y ≤ cost row x := by
  by_cases hyTaken : ∃ k < row, taken k = y
  · obtain ⟨k, hk, rfl⟩ := hyTaken
    exact h.rounds.settled_le hk hx
  by_cases hxMem : x ∈ lists.map Prod.fst
  swap
  · rw [cost_of_not_mem hwell hstart h.rounds hxMem (Nat.le_refl _)]
    exact h.rounds.cost_le_infinite (Nat.le_refl _) y
  by_cases hxy : y = x
  · rw [hxy]
  -- two nodes that are left would be too many
  exfalso
  let all := (Finset.range row).image taken
  have hinj : Set.InjOn taken (Finset.range row) := by
    intro i hi j hj heq
    rw [Finset.coe_range, Set.mem_Iio] at hi hj
    rcases Nat.lt_trichotomy i j with hlt | hsame | hgt
    · exact absurd heq (h.rounds.fresh j hj i hlt)
    · exact hsame
    · exact absurd heq.symm (h.rounds.fresh i hi j hgt)
  have hcard : all.card = row := by
    rw [Finset.card_image_of_injOn hinj, Finset.card_range]
  have hxAll : x ∉ all := by
    simp only [all, Finset.mem_image, Finset.mem_range, not_exists, not_and]
    exact hx
  have hyAll : y ∉ all := by
    simp only [all, Finset.mem_image, Finset.mem_range]
    exact hyTaken
  have hsub : insert y (insert x all) ⊆ (lists.map Prod.fst).toFinset := by
    intro z hz
    rw [List.mem_toFinset]
    simp only [all, Finset.mem_insert, Finset.mem_image, Finset.mem_range] at hz
    rcases hz with rfl | rfl | ⟨k, hk, rfl⟩
    · exact hy
    · exact hxMem
    · exact h.taken_mem k hk.le
  have hle := Finset.card_le_card hsub
  have hyInsert : y ∉ insert x all := by
    rw [Finset.mem_insert, not_or]
    exact ⟨hxy, hyAll⟩
  rw [Finset.card_insert_of_notMem hyInsert, Finset.card_insert_of_notMem hxAll, hcard,
    List.toFinset_card_of_nodup hwell.sorted.nodup, List.length_map] at hle
  omega

theorem AtRow.relax (hwell : WellFormed lists)
    (h : AtRow lists start infinite row cost taken costMatrix leastNodeArray openSet)
    (hrow : row < lists.length) {list : List (N × ℕ)} (hlist : get? lists (taken row) = some list) :
    ∃ cost', Rounds (Connected lists) start infinite (row + 1)
        (Function.update cost (row + 1) cost') taken ∧
      Shows (lists.map Prod.fst) (list.foldl (relax (lists.map Prod.fst) row
        (cost row (taken row))) (costMatrix, openSet)).1 row cost' ∧
      Opens (list.foldl (WeightedGraph.relax (lists.map Prod.fst) row
        (cost row (taken row))) (costMatrix, openSet)).2 infinite
          (fun v => ∃ k ≤ row, taken k = v) cost' ∧
      ∀ i < row, ∀ v ∈ lists.map Prod.fst, (list.foldl (WeightedGraph.relax (lists.map Prod.fst) row
        (cost row (taken row))) (costMatrix, openSet)).1
          (i * lists.length + indexAtKey (lists.map Prod.fst) v) = cost (i + 1) v := by
  have hlength : (lists.map Prod.fst).length = lists.length := List.length_map _
  have hsorted := hwell.inner _ _ hlist
  have hkeys : ∀ entry ∈ list, entry.1 ∈ lists.map Prod.fst := fun entry hentry =>
    hwell.has ⟨list, hlist, hsorted.get?_of_mem hentry⟩
  have htaken : ∀ v, (∃ k ≤ row, taken k = v) → cost row v ≤ cost row (taken row) := by
    rintro v ⟨k, hk, rfl⟩
    rcases Nat.lt_or_eq_of_le hk with hlt | rfl
    · exact h.rounds.settled_le hlt h.next.fresh
    · exact Nat.le_refl _
  obtain ⟨cost', hshows, hopens, hin, hout, hrows⟩ := relax_foldl hsorted hkeys
    (by rwa [hlength]) h.shows h.opens htaken (h.rounds.cost_le_infinite (Nat.le_refl _))
  refine ⟨cost', ?_, hshows, hopens, fun i hi v hv => ?_⟩
  · have hold : ∀ i ≤ row, Function.update cost (row + 1) cost' i = cost i := fun i hi =>
      Function.update_of_ne (by omega) _ _
    have hedge : ∀ v w, Connected lists (taken row) v w → (v, w) ∈ list := by
      rintro v w ⟨list', hlist', hw⟩
      obtain rfl := Option.some.inj (hlist.symm.trans hlist')
      exact mem_of_get? hw
    have hnew : ∀ v, cost' v = cost row v ∨ ∃ w, Connected lists (taken row) v w ∧
        cost' v = cost row (taken row) + w := by
      intro v
      by_cases hv : v ∈ list.map Prod.fst
      · obtain ⟨⟨v, w⟩, hmem, rfl⟩ := List.mem_map.mp hv
        have hmin := hin v w hmem
        rcases Nat.le_total (cost row v) (cost row (taken row) + w) with hle | hle
        · exact .inl (hmin.trans (Nat.min_eq_left hle))
        · exact .inr ⟨w, ⟨list, hlist, hsorted.get?_of_mem hmem⟩,
            hmin.trans (Nat.min_eq_right hle)⟩
      · exact .inl (hout v hv)
    have hle : ∀ v, cost' v ≤ cost row v := by
      intro v
      by_cases hv : v ∈ list.map Prod.fst
      · obtain ⟨⟨v, w⟩, hmem, rfl⟩ := List.mem_map.mp hv
        exact (hin v w hmem).le.trans (Nat.min_le_left _ _)
      · exact (hout v hv).le
    apply (h.rounds.congr hold fun i _ => rfl).succ
    · refine ⟨h.next.fresh, fun v hv => ?_⟩
      rw [hold row (Nat.le_refl _)]
      exact h.next.least v hv
    · exact h.first
    · intro v
      rw [hold row (Nat.le_refl _), Function.update_self]
      exact hnew v
    · intro v
      rw [hold row (Nat.le_refl _), Function.update_self]
      exact hle v
    · intro v w hconnected
      rw [hold row (Nat.le_refl _), Function.update_self, hin v w (hedge v w hconnected)]
      exact Nat.min_le_right _ _
  · have hdiv := div_index hv i
    rw [hlength] at hdiv hrows
    rw [hrows _ (by rw [hdiv]; exact hi), h.cells i hi v hv]

/-- The state in the middle of the loop, behind the connections of the node of a row. -/
structure Relaxed (lists : List (N × List (N × ℕ))) (start : N) (infinite row : ℕ)
    (cost : ℕ → N → ℕ) (taken : ℕ → N) (costMatrix : ℕ → ℕ) (leastNodeArray : ℕ → Option N)
    (openSet : List (N × ℕ)) : Prop where
  rounds : Rounds (Connected lists) start infinite (row + 1) cost taken
  cells : ∀ i < row + 1, ∀ v ∈ lists.map Prod.fst,
    costMatrix (i * lists.length + indexAtKey (lists.map Prod.fst) v) = cost (i + 1) v
  shows : Shows (lists.map Prod.fst) costMatrix row (cost (row + 1))
  least : ∀ i < row, leastNodeArray i = some (taken (i + 1))
  taken_mem : ∀ i ≤ row, taken i ∈ lists.map Prod.fst
  opens : Opens openSet infinite (fun v => ∃ k ≤ row, taken k = v) (cost (row + 1))

theorem AtRow.relaxed (hwell : WellFormed lists)
    (h : AtRow lists start infinite row cost taken costMatrix leastNodeArray openSet)
    (hrow : row < lists.length) {list : List (N × ℕ)} (hlist : get? lists (taken row) = some list) :
    ∃ cost', Relaxed lists start infinite row (Function.update cost (row + 1) cost') taken
      (list.foldl (WeightedGraph.relax (lists.map Prod.fst) row (cost row (taken row)))
        (costMatrix, openSet)).1 leastNodeArray
      (list.foldl (WeightedGraph.relax (lists.map Prod.fst) row (cost row (taken row)))
        (costMatrix, openSet)).2 := by
  obtain ⟨cost', hrounds, hshows, hopens, hcells⟩ := h.relax hwell hrow hlist
  have hself : Function.update cost (row + 1) cost' (row + 1) = cost' :=
    Function.update_self _ _ _
  refine ⟨cost', hrounds, fun i hi v hv => ?_, by rwa [hself], h.least, h.taken_mem,
    by rwa [hself]⟩
  rcases Nat.lt_succ_iff_lt_or_eq.mp hi with hlt | rfl
  · rw [Function.update_of_ne (by omega)]
    exact hcells i hlt v hv
  · have hcell := hshows i (Nat.le_refl _) (by rwa [List.length_map]) v hv
    rw [List.length_map] at hcell
    rw [hself]
    exact hcell

theorem Relaxed.mem_openSet
    (h : Relaxed lists start infinite row cost taken costMatrix leastNodeArray openSet) {v : N}
    (hv : ∀ k < row + 1, taken k ≠ v) (hlt : cost (row + 1) v < infinite) :
    (v, cost (row + 1) v) ∈ openSet := by
  apply mem_of_get?
  refine (h.opens.get?_iff v _).mpr ⟨?_, hlt, rfl⟩
  rintro ⟨k, hk, heq⟩
  exact hv k (Nat.lt_succ_of_le hk) heq

theorem Relaxed.made
    (h : Relaxed lists start infinite row cost taken costMatrix leastNodeArray openSet)
    (hnil : openSet = []) (hrow : row + 2 ≤ lists.length) :
    Made lists start infinite (row + 1) cost taken costMatrix leastNodeArray where
  rounds := h.rounds
  count_pos _ := Nat.succ_pos row
  count_le := hrow
  cells i hi v hv := by
    rcases Nat.lt_or_ge i (row + 1) with hlt | hge
    · rw [h.cells i hlt v hv, Nat.min_eq_left hlt]
    · have hcell := h.shows i (by omega) (by rwa [List.length_map]) v hv
      rw [List.length_map] at hcell
      rw [hcell, Nat.min_eq_right (by omega)]
  least i hi := h.least i (Nat.lt_of_succ_lt_succ hi)
  taken_mem i hi := h.taken_mem i (Nat.le_of_lt_succ hi)
  last x hx y _ := by
    have hinfinite := h.rounds.cost_le_infinite (Nat.le_refl _)
    have hfar : cost (row + 1) x = infinite := by
      by_contra hne
      have hin := h.mem_openSet hx (Nat.lt_of_le_of_ne (hinfinite x) hne)
      rw [hnil] at hin
      cases hin
    rw [hfar]
    exact hinfinite y

theorem Opens.delete {node : N} {isTaken isTaken' : N → Prop} {cost : N → ℕ}
    (h : Opens openSet infinite isTaken cost) (hnew : ∀ v, isTaken' v ↔ isTaken v ∨ v = node) :
    Opens (delete openSet node) infinite isTaken' cost := by
  refine ⟨h.sorted.delete node, fun v w => ?_⟩
  rw [get?_delete, hnew]
  by_cases hv : v = node
  · rw [if_pos hv]
    exact ⟨fun hno => (by cases hno), fun hno => absurd (.inr hv) hno.1⟩
  · rw [if_neg hv, h.get?_iff]
    exact and_congr_left' (not_congr ⟨.inl, fun hor => hor.resolve_right hv⟩)

theorem Relaxed.next (hwell : WellFormed lists) (hstart : start ∈ lists.map Prod.fst)
    (h : Relaxed lists start infinite row cost taken costMatrix leastNodeArray openSet) {node : N}
    (hmem : (node, cost (row + 1) node) ∈ openSet)
    (hmin : ∀ entry ∈ openSet, cost (row + 1) node ≤ entry.2) :
    AtRow lists start infinite (row + 1) cost (Function.update taken (row + 1) node) costMatrix
      (Function.update leastNodeArray row (some node)) (delete openSet node) := by
  obtain ⟨hleft, hreached, -⟩ := (h.opens.get?_iff node _).mp (h.opens.sorted.get?_of_mem hmem)
  have hinfinite := h.rounds.cost_le_infinite (Nat.le_refl _)
  have hold : ∀ i ≤ row, Function.update taken (row + 1) node i = taken i := fun i hi =>
    Function.update_of_ne (by omega) _ _
  have hnode : Function.update taken (row + 1) node (row + 1) = node :=
    Function.update_self _ _ _
  refine ⟨h.rounds.congr (fun _ _ => rfl) fun i hi => hold i (Nat.le_of_lt_succ hi), ?_,
    fun hzero => absurd hzero (Nat.succ_ne_zero row), h.cells,
    fun i hi => h.shows i (Nat.le_of_succ_le hi), fun i hi => ?_, fun i hi => ?_,
    h.opens.delete fun v => ?_⟩
  · rw [hnode]
    refine ⟨fun k hk => ?_, fun v hv => ?_⟩
    · rw [hold k (Nat.le_of_lt_succ hk)]
      exact fun heq => hleft ⟨k, Nat.le_of_lt_succ hk, heq⟩
    · by_cases hlt : cost (row + 1) v < infinite
      · refine hmin (v, cost (row + 1) v) (h.mem_openSet (fun k hk => ?_) hlt)
        rw [← hold k (Nat.le_of_lt_succ hk)]
        exact hv k hk
      · exact (hinfinite node).trans (Nat.le_of_not_lt hlt)
  · rcases Nat.lt_succ_iff_lt_or_eq.mp hi with hlt | rfl
    · rw [Function.update_of_ne hlt.ne, hold (i + 1) hlt]
      exact h.least i hlt
    · rw [Function.update_self, hnode]
  · rcases Nat.lt_or_eq_of_le hi with hlt | rfl
    · rw [hold i (Nat.le_of_lt_succ hlt)]
      exact h.taken_mem i (Nat.le_of_lt_succ hlt)
    · rw [hnode]
      by_contra hnot
      have hout := cost_of_not_mem hwell hstart h.rounds hnot (Nat.le_refl _)
      omega
  · constructor
    · rintro ⟨k, hk, heq⟩
      rcases Nat.lt_or_eq_of_le hk with hlt | rfl
      · exact .inl ⟨k, Nat.le_of_lt_succ hlt, (hold k (Nat.le_of_lt_succ hlt)).symm.trans heq⟩
      · exact .inr (heq.symm.trans hnode)
    · rintro (⟨k, hk, heq⟩ | rfl)
      · exact ⟨k, Nat.le_succ_of_le hk, (hold k hk).trans heq⟩
      · exact ⟨row + 1, Nat.le_refl _, hnode⟩

theorem generateLoop_eq (hwell : WellFormed lists) (hstart : start ∈ lists.map Prod.fst)
    {rows : ℕ} (h : AtRow lists start infinite row cost taken costMatrix leastNodeArray openSet)
    (hrows : row + rows + 1 = lists.length) :
    ∃ costMatrix' leastNodeArray' count cost' taken',
      generateLoop lists rows row (taken row) (cost row (taken row)) costMatrix leastNodeArray
        openSet = some (costMatrix', leastNodeArray') ∧
      Made lists start infinite count cost' taken' costMatrix' leastNodeArray' := by
  induction rows generalizing row cost taken costMatrix leastNodeArray openSet with
  | zero =>
    refine ⟨costMatrix, leastNodeArray, row, cost, taken, rfl, h.rounds, by omega,
      hrows.le, fun i hi v hv => ?_, fun i hi => h.least i (Nat.lt_of_succ_lt hi),
      fun i hi => h.taken_mem i hi.le, fun x hx y hy => last_of_full hwell hstart h hrows hx hy⟩
    rcases Nat.lt_or_ge i row with hlt | hge
    · rw [h.cells i hlt v hv, Nat.min_eq_left hlt]
    · obtain rfl : i = row := by omega
      have hcell := h.shows i (Nat.le_refl _) (by rwa [List.length_map]) v hv
      rw [List.length_map] at hcell
      rw [hcell, Nat.min_eq_right (Nat.le_succ _)]
  | succ rows ih =>
    obtain ⟨list, hlist⟩ := has_iff.mp (h.taken_mem row (Nat.le_refl _))
    obtain ⟨cost', hrelaxed⟩ := h.relaxed hwell (by omega) hlist
    rw [generateLoop, hlist]
    dsimp only
    generalize list.foldl (relax (lists.map Prod.fst) row (cost row (taken row)))
      (costMatrix, openSet) = relaxed at *
    rcases lowest_cases relaxed.2 with ⟨hnil, hnone⟩ | ⟨weight, node, hlowest, hmem, hmin⟩
    · rw [hnone]
      exact ⟨relaxed.1, leastNodeArray, row + 1, _, taken, rfl, hrelaxed.made hnil (by omega)⟩
    · rw [hlowest]
      dsimp only
      obtain ⟨-, -, rfl⟩ := (hrelaxed.opens.get?_iff node weight).mp
        (hrelaxed.opens.sorted.get?_of_mem hmem)
      have hrest := ih (hrelaxed.next hwell hstart hmem hmin) (by omega)
      rw [Function.update_self] at hrest
      exact hrest

end WeightedGraph

end SLikeNet
