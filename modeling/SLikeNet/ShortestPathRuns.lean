import SLikeNet.CostMatrix
import Mathlib.Data.List.Induction

/-! `GetShortestPath` over the runs of a weighted graph. -/

namespace SLikeNet

open SortedMap ShortestPaths

namespace WeightedGraph

variable {N : Type*} [LinearOrder N]

/-- The matrix of a graph is that of these lists. -/
structure Cached (g : WeightedGraph N) (lists : List (N × List (N × ℕ))) (start : N)
    (infinite : ℕ) : Prop where
  wellFormed : WellFormed lists
  isValidPath : g.isValidPath = true
  rootNode : g.rootNode = some start
  costMatrixIndices : g.costMatrixIndices = lists.map Prod.fst
  start_mem : start ∈ lists.map Prod.fst
  made : ∃ count cost taken,
    Made lists start infinite count cost taken g.costMatrix g.leastNodeArray

variable {lists : List (N × List (N × ℕ))} {start : N} {infinite : ℕ} {g : WeightedGraph N}

theorem atRow_zero (hstart : start ∈ lists.map Prod.fst) (infinite : ℕ)
    (leastNodeArray : ℕ → Option N) :
    AtRow lists start infinite 0 (fun _ v => if v = start then 0 else infinite) (fun _ => start)
      (setColumn (lists.map Prod.fst).length (indexAtKey (lists.map Prod.fst) start) 0 0
        fun _ => infinite) leastNodeArray [] := by
  refine ⟨⟨if_pos rfl, fun v hv => if_neg hv, fun hpos => absurd hpos (Nat.lt_irrefl 0),
      fun i hi => absurd hi (Nat.not_lt_zero i), fun i hi => absurd hi (Nat.not_lt_zero i),
      fun i hi => absurd hi (Nat.not_lt_zero i), fun i hi => absurd hi (Nat.not_lt_zero i),
      fun i hi => absurd hi (Nat.not_lt_zero i)⟩,
    ⟨fun k hk => absurd hk (Nat.not_lt_zero k), fun v _ => ?_⟩, fun _ => rfl,
    fun i hi => absurd hi (Nat.not_lt_zero i), fun row _ hrow v hv => ?_,
    fun i hi => absurd hi (Nat.not_lt_zero i), fun i _ => hstart, ⟨.nil, fun v w => ?_⟩⟩
  · rw [if_pos rfl]
    exact Nat.zero_le _
  · rw [setColumn_index hv hrow]
    by_cases heq : v = start
    · rw [if_pos ⟨Nat.zero_le _, heq⟩, if_pos heq]
    · rw [if_neg fun h => heq h.2, if_neg heq]
  · constructor
    · intro hnone
      cases hnone
    · rintro ⟨hnot, hlt, -⟩
      have hne : v ≠ start := fun heq => hnot ⟨0, Nat.le_refl 0, heq.symm⟩
      rw [if_neg hne] at hlt
      exact absurd hlt (Nat.lt_irrefl _)

theorem exists_generateDisjktraMatrix (hwell : WellFormed g.adjacencyLists)
    (hstart : Has g.adjacencyLists start) (infinite : ℕ) :
    ∃ g', g.generateDisjktraMatrix start infinite = some g' ∧
      g'.adjacencyLists = g.adjacencyLists ∧ Cached g' g.adjacencyLists start infinite := by
  have hpos : 0 < (g.adjacencyLists.map Prod.fst).length := List.length_pos_of_mem hstart
  have hlength : (g.adjacencyLists.map Prod.fst).length = g.adjacencyLists.length :=
    List.length_map _
  have hrows : 0 + ((g.adjacencyLists.map Prod.fst).length - 1) + 1 = g.adjacencyLists.length := by
    omega
  obtain ⟨costMatrix, leastNodeArray, count, cost, taken, hloop, hmade⟩ :=
    generateLoop_eq hwell hstart (atRow_zero hstart infinite g.leastNodeArray) hrows
  rw [if_pos rfl] at hloop
  refine ⟨{ g with
    isValidPath := true
    rootNode := some start
    costMatrixIndices := g.adjacencyLists.map Prod.fst
    costMatrix := costMatrix
    leastNodeArray := leastNodeArray }, ?_, rfl, hwell, rfl, rfl, rfl, hstart,
    count, cost, taken, hmade⟩
  rw [generateDisjktraMatrix]
  dsimp only
  have hmem : start ∈ g.adjacencyLists.map Prod.fst := hstart
  rw [if_neg hpos.ne', if_pos hmem, hloop]
  rfl

/-! ### The path is read back -/

theorem exists_walkBack {count : ℕ} {cost : ℕ → N → ℕ} {taken : ℕ → N}
    (hmade : Made g.adjacencyLists start infinite count cost taken g.costMatrix g.leastNodeArray)
    (hindices : g.costMatrixIndices = g.adjacencyLists.map Prod.fst) (hpos : 0 < count)
    {row : ℕ} (hrow : row + 1 < g.adjacencyLists.length) {v endNode : N} {queue : List N} {d : ℕ}
    (hv : v ∈ g.adjacencyLists.map Prod.fst) (hne : v ≠ start)
    (hcost : cost (min (row + 2) count) v < infinite)
    (hpath : Path (Connected g.adjacencyLists) v endNode queue d) :
    ∃ queue', walkBack g row (indexAtKey (g.adjacencyLists.map Prod.fst) v)
        (cost (min (row + 2) count) v) queue = some queue' ∧
      Path (Connected g.adjacencyLists) start endNode (start :: queue')
        (cost (min (row + 2) count) v + d) := by
  have hcell : ∀ i < g.adjacencyLists.length, ∀ v ∈ g.adjacencyLists.map Prod.fst,
      g.costMatrix (i * g.adjacencyLists.length + indexAtKey (g.adjacencyLists.map Prod.fst) v) =
        cost (min (i + 1) count) v := hmade.cells
  -- a cost that is older than the row came from the node that was taken then
  have hcame : ∀ row v, cost (min (row + 1) count) v ≠ cost (min (row + 2) count) v →
      row + 1 < count ∧ ∃ w, Connected g.adjacencyLists (taken (row + 1)) v w ∧
        cost (min (row + 2) count) v = cost (row + 1) (taken (row + 1)) + w := by
    intro row v hdiff
    have hlt : row + 1 < count := by
      by_contra hge
      rw [Nat.min_eq_right (by omega), Nat.min_eq_right (by omega)] at hdiff
      exact hdiff rfl
    rw [Nat.min_eq_left (by omega), Nat.min_eq_left (by omega)] at hdiff
    rw [Nat.min_eq_left (by omega : row + 2 ≤ count)]
    exact ⟨hlt, hmade.rounds.edge_of_ne hlt hdiff⟩
  have htaken : ∀ i, i + 1 < count → taken (i + 1) ≠ start := by
    intro i hi heq
    have hfresh := hmade.rounds.fresh (i + 1) hi 0 (Nat.succ_pos i)
    rw [hmade.rounds.taken_zero hpos] at hfresh
    exact hfresh heq.symm
  induction row generalizing v queue d with
  | zero =>
    rw [walkBack, hcell 0 (by omega) v hv]
    by_cases hsame : cost (min (0 + 1) count) v = cost (min (0 + 2) count) v
    · rw [if_pos hsame]
      refine ⟨queue, rfl, ?_⟩
      rw [← hsame, Nat.min_eq_left hpos] at hcost ⊢
      exact .cons (hmade.rounds.edge_of_first hpos hne hcost.ne) hpath
    · obtain ⟨hlt, w, hedge, hnew⟩ := hcame 0 v hsame
      rw [if_neg hsame, hmade.least 0 hlt]
      refine ⟨taken 1 :: queue, rfl, ?_⟩
      have hnew : cost (min (0 + 2) count) v = cost 1 (taken 1) + w := hnew
      have hfirst := hmade.rounds.edge_of_first hpos (htaken 0 hlt)
        (show cost 1 (taken 1) ≠ infinite by omega)
      rw [hnew, Nat.add_assoc]
      exact .cons hfirst (.cons hedge hpath)
  | succ row ih =>
    rw [walkBack, hcell (row + 1) (by omega) v hv]
    by_cases hsame : cost (min (row + 1 + 1) count) v = cost (min (row + 1 + 2) count) v
    · rw [if_pos hsame]
      rw [← hsame] at hcost ⊢
      exact ih (by omega) hv hne hcost hpath
    · obtain ⟨hlt, w, hedge, hnew⟩ := hcame (row + 1) v hsame
      have hmem := hmade.taken_mem (row + 1 + 1) hlt
      have hmin : min (row + 2) count = row + 1 + 1 := Nat.min_eq_left hlt.le
      rw [if_neg hsame, hmade.least (row + 1) hlt]
      dsimp only
      rw [hindices, hcell (row + 1) (by omega) _ hmem]
      have hback := ih (by omega) hmem (htaken (row + 1) hlt)
        (by rw [hmin]; omega) (.cons hedge hpath)
      obtain ⟨queue', hwalk, hstartPath⟩ := hback
      refine ⟨queue', hwalk, ?_⟩
      rw [hmin] at hstartPath
      rw [hnew, Nat.add_assoc]
      exact hstartPath

/-- If a path is short enough, then so is the least one. -/
def Below (lists : List (N × List (N × ℕ))) (startNode endNode : N) (infinite : ℕ) : Prop :=
  ∀ nodes weight, Path (Connected lists) startNode endNode nodes weight →
    ∃ nodes' weight', Path (Connected lists) startNode endNode nodes' weight' ∧ weight' < infinite

theorem exists_readPath {endNode : N} (h : Cached g g.adjacencyLists start infinite)
    (hend : Has g.adjacencyLists endNode) (hne : start ≠ endNode)
    (hbelow : Below g.adjacencyLists start endNode infinite)
    (htwo : g.adjacencyLists.length = 2 → ∃ w, Connected g.adjacencyLists start endNode w) :
    ∃ result, g.readPath start endNode infinite = some result ∧
      Finds g.adjacencyLists start endNode result := by
  obtain ⟨count, cost, taken, hmade⟩ := h.made
  have hlength : (g.adjacencyLists.map Prod.fst).length = g.adjacencyLists.length :=
    List.length_map _
  have hsize : 2 ≤ g.adjacencyLists.length := by
    by_contra hfew
    have hsome := List.length_pos_of_mem h.start_mem
    obtain ⟨a, ha⟩ := List.length_eq_one_iff.mp
      (show (g.adjacencyLists.map Prod.fst).length = 1 by omega)
    have hstartMem := h.start_mem
    have hendMem : endNode ∈ g.adjacencyLists.map Prod.fst := hend
    rw [ha, List.mem_singleton] at hstartMem hendMem
    exact hne (hstartMem.trans hendMem.symm)
  have hpos := hmade.count_pos hsize
  have hmem : endNode ∈ g.adjacencyLists.map Prod.fst := hend
  rw [readPath, h.costMatrixIndices, hlength, if_neg (Nat.not_lt_of_le hsize), if_pos hmem]
  dsimp only
  rcases Nat.lt_or_eq_of_le hsize with hthree | htwoNodes
  · obtain ⟨row, hrow⟩ : ∃ row, g.adjacencyLists.length = row + 3 :=
      ⟨g.adjacencyLists.length - 3, by omega⟩
    have hcell := hmade.cells (row + 1) (by omega) endNode hend
    have hlast : min (row + 2) count = count := by
      have hle := hmade.count_le
      omega
    have hshort : ∀ nodes d, Path (Connected g.adjacencyLists) start endNode nodes d →
        cost count endNode ≤ d := by
      intro nodes d hpath
      have hle := hmade.rounds.cost_le_of_path (fun x hx => hmade.last x hx endNode hend) hpath
      rwa [hmade.rounds.cost_start (Nat.le_refl _), Nat.zero_add] at hle
    rw [show g.adjacencyLists.length - 2 = row + 1 by omega]
    dsimp only
    rw [hcell, hlast]
    by_cases hreached : cost count endNode = infinite
    · rw [if_pos hreached]
      refine ⟨_, rfl, .inr ⟨fun nodes d hpath => ?_, .inr rfl⟩⟩
      obtain ⟨nodes', d', hpath', hlt⟩ := hbelow nodes d hpath
      have hle := hshort nodes' d' hpath'
      omega
    · have hlt : cost (min (row + 2) count) endNode < infinite := by
        rw [hlast]
        exact Nat.lt_of_le_of_ne (hmade.rounds.cost_le_infinite (Nat.le_refl _) endNode) hreached
      obtain ⟨queue, hwalk, hpath⟩ := exists_walkBack hmade h.costMatrixIndices hpos
        (by omega : row + 1 < _) hend hne.symm hlt (.nil endNode)
      rw [hlast] at hwalk hpath
      rw [if_neg hreached, hwalk]
      exact ⟨_, rfl, .inl ⟨_, rfl, hpath, hshort⟩⟩
  · obtain ⟨w, hw⟩ := htwo htwoNodes.symm
    rw [← htwoNodes]
    refine ⟨_, rfl, .inl ⟨w + 0, rfl, .cons hw (.nil endNode), fun nodes d hpath => ?_⟩⟩
    cases hpath with
    | nil => exact absurd rfl hne
    | @cons _ y _ w' d nodes hedge hrest =>
      -- the first connection of a path goes to the other node
      have hy : y = endNode := by
        have hyMem : y ∈ g.adjacencyLists.map Prod.fst := h.wellFormed.has hedge
        have hyNe : y ≠ start := fun heq => h.wellFormed.irrefl start w' (heq ▸ hedge)
        obtain ⟨a, b, hab⟩ := List.length_eq_two.mp (hlength.trans htwoNodes.symm)
        have hstartMem := h.start_mem
        have hendMem : endNode ∈ g.adjacencyLists.map Prod.fst := hend
        rw [hab] at hyMem hstartMem hendMem
        simp only [List.mem_cons, List.not_mem_nil, or_false] at hyMem hstartMem hendMem
        grind
      subst hy
      obtain ⟨list, hlist, hget⟩ := hw
      obtain ⟨list', hlist', hget'⟩ := hedge
      obtain rfl := Option.some.inj (hlist.symm.trans hlist')
      obtain rfl := Option.some.inj (hget.symm.trans hget')
      omega

/-! ### Runs -/

/-- A call for which the graph stays what it is and the matrix fits: removals are of what is there
and leave at most one other node without connections, where these are not allowed; a matrix that is
used again was made from the present lists; two nodes are connected. -/
def Fine (allowUnlinkedNodes : Bool) (s : Traced N) : Operation N → Prop
  | .addNode _ => True
  | .addConnection _ _ _ => True
  | .removeConnection node1 node2 =>
    (∃ w, Connected s.graph.adjacencyLists node1 node2 w) ∧
      (allowUnlinkedNodes = false → LeavesFew s.graph.adjacencyLists node1 node2)
  | .removeNode node =>
    Has s.graph.adjacencyLists node ∧
      (allowUnlinkedNodes = false → FewUnlinked s.graph.adjacencyLists node)
  | .clear => True
  | .getShortestPath startNode endNode infiniteWeight =>
    startNode ≠ endNode →
      (Has s.graph.adjacencyLists startNode ∧ Has s.graph.adjacencyLists endNode ∧
        Below s.graph.adjacencyLists startNode endNode infiniteWeight) ∧
      (s.graph.needsMatrix startNode = false →
        s.madeFrom = some (s.graph.adjacencyLists, infiniteWeight)) ∧
      (s.graph.adjacencyLists.length = 2 →
        ∃ w, Connected s.graph.adjacencyLists startNode endNode w)

/-- What holds between the calls. -/
structure Consistent (s : Traced N) : Prop where
  wellFormed : WellFormed s.graph.adjacencyLists
  cached : s.graph.isValidPath = true → ∃ lists start infinite,
    s.madeFrom = some (lists, infinite) ∧ Cached s.graph lists start infinite

theorem consistent_empty : Consistent (⟨empty, none⟩ : Traced N) :=
  ⟨wellFormed_nil, fun hvalid => by cases hvalid⟩

theorem Consistent.of_lists {s : Traced N} (h : Consistent s) {g' : WeightedGraph N}
    (hwell : WellFormed g'.adjacencyLists)
    (hsame : g' = { s.graph with adjacencyLists := g'.adjacencyLists }) :
    Consistent { s with graph := g' } := by
  refine ⟨hwell, fun hvalid => ?_⟩
  have hold : s.graph.isValidPath = true := by
    rw [hsame] at hvalid
    exact hvalid
  obtain ⟨lists, start, infinite, hmade, hcached⟩ := h.cached hold
  refine ⟨lists, start, infinite, hmade, ?_⟩
  show Cached g' lists start infinite
  rw [hsame]
  exact ⟨hcached.wellFormed, hcached.isValidPath, hcached.rootNode, hcached.costMatrixIndices,
    hcached.start_mem, hcached.made⟩

theorem consistent_of_invalid {g' : WeightedGraph N} (hwell : WellFormed g'.adjacencyLists)
    (hinvalid : g'.isValidPath = false) (madeFrom : Option (List (N × List (N × ℕ)) × ℕ)) :
    Consistent ⟨g', madeFrom⟩ := by
  refine ⟨hwell, fun hvalid => ?_⟩
  have hvalid : g'.isValidPath = true := hvalid
  rw [hinvalid] at hvalid
  cases hvalid

theorem addNode_eq (g : WeightedGraph N) (node : N) :
    g.addNode node = { g with adjacencyLists := (g.addNode node).adjacencyLists } := rfl

theorem addConnection_eq (g : WeightedGraph N) (node1 node2 : N) (weight : ℕ) :
    g.addConnection node1 node2 weight =
      { g with adjacencyLists := (g.addConnection node1 node2 weight).adjacencyLists } := by
  rw [addConnection]
  split
  · rfl
  · dsimp only
    split <;> split <;> rfl

theorem Consistent.getShortestPath {s : Traced N} (h : Consistent s) {startNode endNode : N}
    {infiniteWeight : ℕ} (hne : startNode ≠ endNode) {allowUnlinkedNodes : Bool}
    (hfine : Fine allowUnlinkedNodes s (.getShortestPath startNode endNode infiniteWeight)) :
    ∃ result g', s.graph.getShortestPath startNode endNode infiniteWeight = some (result, g') ∧
      Finds s.graph.adjacencyLists startNode endNode result ∧
      Consistent ⟨g', if startNode ≠ endNode ∧ s.graph.needsMatrix startNode then
        some (s.graph.adjacencyLists, infiniteWeight) else s.madeFrom⟩ := by
  obtain ⟨⟨hstart, hend, hbelow⟩, hfresh, htwo⟩ := hfine hne
  rw [WeightedGraph.getShortestPath, if_neg hne]
  by_cases hneeds : s.graph.needsMatrix startNode = true
  · have hclear := adjacencyLists_clearDijkstra s.graph
    obtain ⟨g', hgenerate, hlists, hcached⟩ :=
      exists_generateDisjktraMatrix (g := s.graph.clearDijkstra)
        (by rw [hclear]; exact h.wellFormed) (by rw [hclear]; exact hstart) infiniteWeight
    rw [hclear] at hlists hcached
    obtain ⟨result, hread, hfinds⟩ := exists_readPath (by rw [hlists]; exact hcached)
      (by rw [hlists]; exact hend) hne (by rw [hlists]; exact hbelow) (by rw [hlists]; exact htwo)
    rw [hlists] at hfinds
    rw [if_pos hneeds, if_pos ⟨hne, hneeds⟩, hgenerate, Option.bind_some, hread]
    refine ⟨result, g', rfl, hfinds, ?_, fun _ => ⟨_, _, _, rfl, hcached⟩⟩
    show WellFormed g'.adjacencyLists
    rw [hlists]
    exact h.wellFormed
  · have hnot : s.graph.needsMatrix startNode = false := eq_false_of_ne_true hneeds
    have hvalid : s.graph.isValidPath = true ∧ s.graph.rootNode = some startNode := by
      simpa [needsMatrix] using hnot
    obtain ⟨lists, start, infinite, hmade, hcached⟩ := h.cached hvalid.1
    obtain ⟨rfl, rfl⟩ : lists = s.graph.adjacencyLists ∧ infinite = infiniteWeight :=
      Prod.mk.inj (Option.some.inj (hmade.symm.trans (hfresh hnot)))
    obtain rfl : start = startNode := Option.some.inj (hcached.rootNode.symm.trans hvalid.2)
    obtain ⟨result, hread, hfinds⟩ := exists_readPath hcached hend hne hbelow htwo
    rw [if_neg hneeds, if_neg fun hboth => hneeds hboth.2, Option.bind_some, hread]
    exact ⟨result, s.graph, rfl, hfinds, h⟩

theorem Consistent.perform {s : Traced N} (h : Consistent s) {allowUnlinkedNodes : Bool}
    {operation : Operation N} (hfine : Fine allowUnlinkedNodes s operation) :
    ∃ s', WeightedGraph.perform allowUnlinkedNodes s operation = some s' ∧ Consistent s' := by
  cases operation with
  | addNode node =>
    exact ⟨_, rfl, h.of_lists (h.wellFormed.addNode node) (addNode_eq s.graph node)⟩
  | addConnection node1 node2 weight =>
    exact ⟨_, rfl, h.of_lists (h.wellFormed.addConnection node1 node2 weight)
      (addConnection_eq s.graph node1 node2 weight)⟩
  | removeConnection node1 node2 =>
    obtain ⟨⟨w, hconnected⟩, hfew⟩ := hfine
    obtain ⟨g', hremove, hwell, hinvalid⟩ := exists_removeConnection h.wellFormed hconnected hfew
    exact ⟨_, by rw [WeightedGraph.perform, hremove]; rfl, consistent_of_invalid hwell hinvalid _⟩
  | removeNode node =>
    obtain ⟨g', hremove, hremoved⟩ := exists_removeNode h.wellFormed hfine.1 hfine.2
    exact ⟨_, by rw [WeightedGraph.perform, hremove]; rfl,
      consistent_of_invalid hremoved.wellFormed hremoved.isValidPath _⟩
  | clear =>
    refine ⟨_, rfl, consistent_of_invalid ?_ (isValidPath_clearDijkstra _) _⟩
    show WellFormed (clearDijkstra { s.graph with adjacencyLists := [] }).adjacencyLists
    rw [adjacencyLists_clearDijkstra]
    exact wellFormed_nil
  | getShortestPath startNode endNode infiniteWeight =>
    by_cases hne : startNode = endNode
    · refine ⟨s, ?_, h⟩
      rw [WeightedGraph.perform, WeightedGraph.getShortestPath, if_pos hne, Option.map_some,
        if_neg fun hboth => hboth.1 hne]
    · obtain ⟨result, g', hget, -, hconsistent⟩ := h.getShortestPath hne hfine
      exact ⟨_, by rw [WeightedGraph.perform, hget]; rfl, hconsistent⟩

theorem run_concat (allowUnlinkedNodes : Bool) (operations : List (Operation N))
    (operation : Operation N) :
    run allowUnlinkedNodes (operations ++ [operation]) =
      (run allowUnlinkedNodes operations).bind fun s =>
        perform allowUnlinkedNodes s operation := by
  simp [run]

theorem consistent_run (allowUnlinkedNodes : Bool) (operations : List (Operation N))
    (h : ∀ earlier operation later s, operations = earlier ++ operation :: later →
      run allowUnlinkedNodes earlier = some s → Fine allowUnlinkedNodes s operation) :
    ∃ s, run allowUnlinkedNodes operations = some s ∧ Consistent s := by
  induction operations using List.reverseRecOn with
  | nil => exact ⟨_, rfl, consistent_empty⟩
  | append_singleton operations operation ih =>
    obtain ⟨s, hrun, hconsistent⟩ := ih fun earlier operation' later s heq =>
      h earlier operation' (later ++ [operation]) s (by rw [heq]; simp)
    have hfine := h operations operation [] s rfl hrun
    rw [run_concat, hrun, Option.bind_some]
    exact hconsistent.perform hfine

/-- After any run whose calls are fine, `GetShortestPath` finds a path of the least weight, or none
where there is none. -/
theorem finds_run (allowUnlinkedNodes : Bool) (operations : List (Operation N))
    (startNode endNode : N) (infiniteWeight : ℕ) (hne : startNode ≠ endNode)
    (h : ∀ earlier operation later s,
      operations ++ [.getShortestPath startNode endNode infiniteWeight] =
        earlier ++ operation :: later →
      run allowUnlinkedNodes earlier = some s → Fine allowUnlinkedNodes s operation) :
    ∃ s result g, run allowUnlinkedNodes operations = some s ∧
      s.graph.getShortestPath startNode endNode infiniteWeight = some (result, g) ∧
      Finds s.graph.adjacencyLists startNode endNode result := by
  obtain ⟨s, hrun, hconsistent⟩ := consistent_run allowUnlinkedNodes operations
    fun earlier operation later s heq => h earlier operation
      (later ++ [.getShortestPath startNode endNode infiniteWeight]) s (by rw [heq]; simp)
  have hfine := h operations _ [] s rfl hrun
  obtain ⟨result, g, hget, hfinds, -⟩ := hconsistent.getShortestPath hne hfine
  exact ⟨s, result, g, hrun, hget, hfinds⟩

/-- Two nodes with a connection. -/
theorem finds_two :
    ∃ s result g, run true [.addConnection 0 (1 : ℕ) 7] = some s ∧
      s.graph.getShortestPath 0 1 100 = some (result, g) ∧
      Finds s.graph.adjacencyLists 0 1 result := by
  apply finds_run true [.addConnection 0 1 7] 0 1 100 (by decide)
  intro earlier operation later s heq hrun
  rcases earlier with _ | ⟨first, _ | ⟨second, earlier⟩⟩
  · obtain rfl : operation = .addConnection 0 1 7 := (List.head_eq_of_cons_eq heq).symm
    exact trivial
  · obtain ⟨rfl, hrest⟩ : first = .addConnection 0 1 7 ∧
        [.getShortestPath 0 1 100] = operation :: later :=
      ⟨(List.head_eq_of_cons_eq heq).symm, List.tail_eq_of_cons_eq heq⟩
    obtain rfl : operation = .getShortestPath 0 1 100 := (List.head_eq_of_cons_eq hrest).symm
    obtain rfl := Option.some.inj hrun
    have hconnected : Connected (empty.addConnection 0 (1 : ℕ) 7).adjacencyLists 0 1 7 :=
      ⟨[(1, 7)], rfl, rfl⟩
    refine fun _ => ⟨⟨by decide, by decide, fun _ _ _ => ?_⟩,
      fun hneeds => absurd hneeds (by decide), fun _ => ⟨7, hconnected⟩⟩
    exact ⟨_, _, .cons hconnected (.nil 1), by decide⟩
  · simp at heq

/-- Two nodes without a connection. -/
theorem path_without_connection :
    ¬ ∀ (allowUnlinkedNodes : Bool) (operations : List (Operation ℕ)) (s : Traced ℕ)
      (startNode endNode infiniteWeight : ℕ),
      run allowUnlinkedNodes operations = some s → startNode ≠ endNode →
        Has s.graph.adjacencyLists startNode → Has s.graph.adjacencyLists endNode →
        (∀ nodes weight, Path (Connected s.graph.adjacencyLists) startNode endNode nodes weight →
          weight < infiniteWeight) →
        ∃ result g, s.graph.getShortestPath startNode endNode infiniteWeight = some (result, g) ∧
          Finds s.graph.adjacencyLists startNode endNode result := by
  intro h
  have hnone : ∀ nodes weight,
      ¬ Path (Connected [((0 : ℕ), []), ((1 : ℕ), [])]) 0 1 nodes weight := by
    intro nodes weight hpath
    cases hpath with
    | cons hedge _ =>
      obtain ⟨list, hlist, hget⟩ := hedge
      obtain rfl := Option.some.inj hlist
      cases hget
  obtain ⟨result, g, hget, hfinds⟩ := h true [.addNode 0, .addNode 1] _ 0 1 100 rfl (by decide)
    (by decide) (by decide) fun nodes weight hpath => absurd hpath (hnone nodes weight)
  rcases hfinds with ⟨weight, -, hpath, -⟩ | ⟨-, hempty⟩
  · exact hnone _ _ hpath
  · have hresult : some (true, [0, 1]) = some result := congrArg (Option.map Prod.fst) hget
    rw [← Option.some.inj hresult] at hempty
    rcases hempty with hno | hno
    · cases hno
    · cases hno

end WeightedGraph

end SLikeNet
