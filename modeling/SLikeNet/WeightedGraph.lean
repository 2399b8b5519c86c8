import SLikeNet.Heap
import SLikeNet.Library.ShortestPaths
import SLikeNet.Library.SortedMap

/-! `DataStructures::WeightedGraph` and its shortest paths. -/

namespace SLikeNet

open SortedMap

/-- The adjacency lists, and the cost matrix of the last start node. -/
structure WeightedGraph (N : Type*) where
  adjacencyLists : List (N × List (N × ℕ))
  isValidPath : Bool
  rootNode : Option N
  costMatrixIndices : List N
  costMatrix : ℕ → ℕ
  leastNodeArray : ℕ → Option N

namespace WeightedGraph

variable {N : Type*} [LinearOrder N]

def empty : WeightedGraph N := ⟨[], false, none, [], fun _ => 0, fun _ => none⟩

def clearDijkstra (g : WeightedGraph N) : WeightedGraph N :=
  if g.isValidPath then { g with isValidPath := false, costMatrixIndices := [] } else g

/-- A node that is there keeps its list. -/
def addNode (g : WeightedGraph N) (node : N) : WeightedGraph N :=
  { g with
    adjacencyLists :=
      if Has g.adjacencyLists node then g.adjacencyLists else set g.adjacencyLists node [] }

/-- The connection is put into the list of a node that is there. -/
def setWeight (g : WeightedGraph N) (node1 node2 : N) (weight : ℕ) : WeightedGraph N :=
  { g with
    adjacencyLists := match get? g.adjacencyLists node1 with
      | some list => set g.adjacencyLists node1 (set list node2 weight)
      | none => g.adjacencyLists }

def addConnection (g : WeightedGraph N) (node1 node2 : N) (weight : ℕ) : WeightedGraph N :=
  if node1 = node2 then g
  else
    let g := if Has g.adjacencyLists node1 then g else g.addNode node1
    let g := g.setWeight node1 node2 weight
    let g := if Has g.adjacencyLists node2 then g else g.addNode node2
    g.setWeight node2 node1 weight

/-- The loop of `RemoveNode`. A node that is not there any more cannot be taken out; every round
takes one out, so that their number bounds the rounds. -/
def removeNodeLoop (allowUnlinkedNodes : Bool) (node : N) :
    ℕ → List N → List (N × List (N × ℕ)) → Option (List (N × List (N × ℕ)))
  | _, [], lists => some lists
  | 0, _ :: _, _ => none
  | rounds + 1, key :: removeNodeQueue, lists =>
    if Has lists key then
      let lists := (delete lists key).map fun entry => (entry.1, delete entry.2 node)
      let unlinked :=
        if allowUnlinkedNodes then [] else
          (lists.filter fun entry => entry.2.length = 0).map Prod.fst
      removeNodeLoop allowUnlinkedNodes node rounds (removeNodeQueue ++ unlinked) lists
    else none

def removeNode (g : WeightedGraph N) (allowUnlinkedNodes : Bool) (node : N) :
    Option (WeightedGraph N) :=
  (removeNodeLoop allowUnlinkedNodes node g.adjacencyLists.length [node] g.adjacencyLists).map
    fun lists => clearDijkstra { g with adjacencyLists := lists }

/-- `adjacencyLists.Get(node1)->Delete(node2)` -/
def deleteFrom (g : WeightedGraph N) (node1 node2 : N) : Option (WeightedGraph N) :=
  (get? g.adjacencyLists node1).map fun list =>
    { g with adjacencyLists := set g.adjacencyLists node1 (delete list node2) }

def removeConnection (g : WeightedGraph N) (allowUnlinkedNodes : Bool) (node1 node2 : N) :
    Option (WeightedGraph N) := do
  let g ← g.deleteFrom node2 node1
  let g ← g.deleteFrom node1 node2
  if allowUnlinkedNodes then return g.clearDijkstra
  let list1 ← get? g.adjacencyLists node1
  let g ← if list1.length = 0 then g.removeNode allowUnlinkedNodes node1 else some g
  let g ← match get? g.adjacencyLists node2 with
    | some list2 =>
      if list2.length = 0 then g.removeNode allowUnlinkedNodes node2 else some g
    | none => some g
  return g.clearDijkstra

def clear (g : WeightedGraph N) : WeightedGraph N :=
  clearDijkstra { g with adjacencyLists := [] }

/-- `GetIndexAtKey` of a key that is there. -/
def indexAtKey (indices : List N) (key : N) : ℕ := indices.idxOf key

/-- The entries of a column from a row on. -/
def setColumn (n column fromRow value : ℕ) (costMatrix : ℕ → ℕ) (i : ℕ) : ℕ :=
  if fromRow ≤ i / n ∧ i / n < n ∧ i % n = column then value else costMatrix i

/-- "If the new weight is less than the current weight, then update that weight." -/
def relax (keys : List N) (row currentNodeWeight : ℕ) (state : (ℕ → ℕ) × List (N × ℕ))
    (entry : N × ℕ) : (ℕ → ℕ) × List (N × ℕ) :=
  let adjacentIndex := indexAtKey keys entry.1
  let weight := currentNodeWeight + entry.2
  if weight < state.1 (row * keys.length + adjacentIndex) then
    (setColumn keys.length adjacentIndex row weight state.1, set state.2 entry.1 weight)
  else state

/-- "Find the lowest in the open set" -/
def lowest (openSet : List (N × ℕ)) : Option (ℕ × N) :=
  let minHeap := openSet.foldl
    (fun (minHeap : Heap ℕ N false) entry => minHeap.push entry.2 entry.1) Heap.empty
  match minHeap.peekWeight, minHeap.pop 0 with
  | some weight, some (node, _) => some (weight, node)
  | _, _ => none

/-- The rows of the matrix, one after the other. -/
def generateLoop (adjacencyLists : List (N × List (N × ℕ))) :
    ℕ → ℕ → N → ℕ → (ℕ → ℕ) → (ℕ → Option N) → List (N × ℕ) →
      Option ((ℕ → ℕ) × (ℕ → Option N))
  | 0, _, _, _, costMatrix, leastNodeArray, _ => some (costMatrix, leastNodeArray)
  | rows + 1, row, currentNode, currentNodeWeight, costMatrix, leastNodeArray, openSet =>
    match get? adjacencyLists currentNode with
    | none => none
    | some adjacencyList =>
      let relaxed := adjacencyList.foldl
        (relax (adjacencyLists.map Prod.fst) row currentNodeWeight) (costMatrix, openSet)
      match lowest relaxed.2 with
      | none => some (relaxed.1, leastNodeArray)
      | some (weight, node) =>
        generateLoop adjacencyLists rows (row + 1) node weight relaxed.1
          (Function.update leastNodeArray row (some node)) (delete relaxed.2 node)

/-- `GenerateDisjktraMatrix` after `ClearDijkstra`, which leaves no indices. -/
def generateDisjktraMatrix (g : WeightedGraph N) (startNode : N) (infiniteWeight : ℕ) :
    Option (WeightedGraph N) :=
  let keys := g.adjacencyLists.map Prod.fst
  if keys.length = 0 then some g
  else if startNode ∈ keys then
    let costMatrix :=
      setColumn keys.length (indexAtKey keys startNode) 0 0 fun _ => infiniteWeight
    (generateLoop g.adjacencyLists (keys.length - 1) 0 startNode 0 costMatrix g.leastNodeArray
      []).map fun result =>
        { g with
          isValidPath := true
          rootNode := some startNode
          costMatrixIndices := keys
          costMatrix := result.1
          leastNodeArray := result.2 }
  else none

/-- The loop that follows the costs back. A node that is put in front is left in the row where its
cost was read, so that the next comparison is one row above. -/
def walkBack (g : WeightedGraph N) : ℕ → ℕ → ℕ → List N → Option (List N)
  | row, col, currentWeight, outputQueue =>
    if g.costMatrix (row * g.adjacencyLists.length + col) = currentWeight then
      match row with
      | 0 => some outputQueue
      | row + 1 => walkBack g row col currentWeight outputQueue
    else
      match g.leastNodeArray row with
      | none => none
      | some vertex =>
        match row with
        | 0 => some (vertex :: outputQueue)
        | row + 1 =>
          let col := indexAtKey g.costMatrixIndices vertex
          walkBack g row col (g.costMatrix ((row + 1) * g.adjacencyLists.length + col))
            (vertex :: outputQueue)

/-- "return the results" -/
def readPath (g : WeightedGraph N) (startNode endNode : N) (infiniteWeight : ℕ) :
    Option (Bool × List N) :=
  if g.costMatrixIndices.length < 2 then some (false, [])
  else if endNode ∈ g.costMatrixIndices then
    let col := indexAtKey g.costMatrixIndices endNode
    match g.costMatrixIndices.length - 2 with
    | 0 => some (true, [startNode, endNode])
    | row + 1 =>
      let currentWeight := g.costMatrix ((row + 1) * g.adjacencyLists.length + col)
      if currentWeight = infiniteWeight then some (true, [])
      else (walkBack g row col currentWeight [endNode]).map fun queue => (true, startNode :: queue)
  else some (false, [])

/-- Whether the matrix is made anew. -/
def needsMatrix (g : WeightedGraph N) (startNode : N) : Bool :=
  !g.isValidPath || decide (g.rootNode ≠ some startNode)

/-- `GetShortestPath`: the result, the path and the graph with its matrix. -/
def getShortestPath (g : WeightedGraph N) (startNode endNode : N) (infiniteWeight : ℕ) :
    Option ((Bool × List N) × WeightedGraph N) :=
  if startNode = endNode then some ((true, [startNode, endNode]), g)
  else
    (if g.needsMatrix startNode then
        g.clearDijkstra.generateDisjktraMatrix startNode infiniteWeight
      else some g).bind fun g =>
        (g.readPath startNode endNode infiniteWeight).map fun result => (result, g)

/-! ### Runs -/

inductive Operation (N : Type*)
  | addNode (node : N)
  | addConnection (node1 node2 : N) (weight : ℕ)
  | removeConnection (node1 node2 : N)
  | removeNode (node : N)
  | clear
  | getShortestPath (startNode endNode : N) (infiniteWeight : ℕ)

/-- A graph, and from which adjacency lists and for which infinite weight the matrix was made. -/
structure Traced (N : Type*) where
  graph : WeightedGraph N
  madeFrom : Option (List (N × List (N × ℕ)) × ℕ)

def perform (allowUnlinkedNodes : Bool) (s : Traced N) : Operation N → Option (Traced N)
  | .addNode node => some { s with graph := s.graph.addNode node }
  | .addConnection node1 node2 weight =>
    some { s with graph := s.graph.addConnection node1 node2 weight }
  | .removeConnection node1 node2 =>
    (s.graph.removeConnection allowUnlinkedNodes node1 node2).map fun g => { s with graph := g }
  | .removeNode node =>
    (s.graph.removeNode allowUnlinkedNodes node).map fun g => { s with graph := g }
  | .clear => some { s with graph := s.graph.clear }
  | .getShortestPath startNode endNode infiniteWeight =>
    (s.graph.getShortestPath startNode endNode infiniteWeight).map fun result =>
      ⟨result.2,
        if startNode ≠ endNode ∧ s.graph.needsMatrix startNode then
          some (s.graph.adjacencyLists, infiniteWeight)
        else s.madeFrom⟩

def run (allowUnlinkedNodes : Bool) (operations : List (Operation N)) : Option (Traced N) :=
  operations.foldl (fun s operation => s.bind fun s => perform allowUnlinkedNodes s operation)
    (some ⟨empty, none⟩)

/-- A connection that is there, with its weight. -/
def Connected (lists : List (N × List (N × ℕ))) (x y : N) (weight : ℕ) : Prop :=
  ∃ list, get? lists x = some list ∧ get? list y = some weight

/-- What is found is a path with the least weight, or nothing where there is no path. -/
def Finds (lists : List (N × List (N × ℕ))) (startNode endNode : N)
    (result : Bool × List N) : Prop :=
  (∃ weight, result.1 = true ∧
      ShortestPaths.Path (Connected lists) startNode endNode result.2 weight ∧
      ∀ nodes other, ShortestPaths.Path (Connected lists) startNode endNode nodes other →
        weight ≤ other) ∨
    (∀ nodes other, ¬ ShortestPaths.Path (Connected lists) startNode endNode nodes other) ∧
      (result.1 = false ∨ result.2 = [])

end WeightedGraph

end SLikeNet
