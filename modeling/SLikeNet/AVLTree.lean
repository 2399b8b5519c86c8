import SLikeNet.Library.BinaryTree
import Mathlib.Data.Finset.Card

/-! `AVLBalancedBinarySearchTree`, on trees whose nodes are known by their items: a pointer is the
item of the node that it points to. -/

namespace SLikeNet

open BinaryTree

structure AVLBalancedBinarySearchTree (α : Type*) where
  root : BinaryTree α
  binarySearchTreeSize : ℕ

namespace AVLBalancedBinarySearchTree

variable {α : Type*}

def heightRecursive : BinaryTree α → ℕ
  | .nil => 0
  | .node _ left right =>
    if left.isNil ∧ right.isNil then 1
    else
      let leftHeight := if left.isNil then 0 else 1 + heightRecursive left
      let rightHeight := if right.isNil then 0 else 1 + heightRecursive right
      if leftHeight > rightHeight then leftHeight else rightHeight

/-- `Height` in a tree of so many nodes. -/
def heightIn (size : ℕ) (startingNode : BinaryTree α) : ℕ :=
  if size = 0 ∨ startingNode.isNil then 0 else heightRecursive startingNode

/-- `LeftHigher` and `RightHigher` -/
def higher (size : ℕ) (side : Side) (a : BinaryTree α) : Bool :=
  if a.isNil then false
  else decide (heightIn size (a.child side) > heightIn size (a.child side.other))

variable [LinearOrder α]

/-- The pointer to a child of a node. -/
def childOf (side : Side) (t : BinaryTree α) (a : Option α) : Option α :=
  a.bind fun a => ((find a [] t).2.child side).item?

def findParent (t : BinaryTree α) (element : α) : Option α :=
  (find element [] t).1.head?.map (·.item)

/-- The node C goes up in the place of its parent B, of which it is the child on `side`; the parent
A of B is found by a search of its own. For a null pointer there is no result. -/
def rotate (side : Side) (t : BinaryTree α) (c : Option α) : Option (BinaryTree α) :=
  c.bind fun c =>
    match find c [] t with
    | (b :: _, subtree) =>
      if b.side = side then
        let above := (find b.item [] t).1
        let d := subtree.child side.other
        some (plug above (make side (subtree.child side) c (make side d b.item b.sibling)))
      else none
    | ([], _) => none

def rotateRight (t : BinaryTree α) (c : Option α) : Option (BinaryTree α) := rotate .left t c

def rotateLeft (t : BinaryTree α) (c : Option α) : Option (BinaryTree α) := rotate .right t c

/-- `DoubleRotateRight` and `DoubleRotateLeft` -/
def doubleRotate (side : Side) (t : BinaryTree α) (a : α) : Option (BinaryTree α) :=
  (rotate side.other t (childOf side.other t (childOf side t (some a)))).bind fun t =>
    rotate side t (childOf side t (some a))

def doubleRotateRight (t : BinaryTree α) (a : α) : Option (BinaryTree α) := doubleRotate .left t a

def doubleRotateLeft (t : BinaryTree α) (a : α) : Option (BinaryTree α) := doubleRotate .right t a

/-- The loop of `BalanceTree`, with a bound for its rounds. -/
def balanceTree (size : ℕ) (rotateOnce : Bool) :
    ℕ → BinaryTree α → Option α → Option (BinaryTree α)
  | _, t, none => some t
  | 0, _, some _ => none
  | rounds + 1, t, some current =>
    let left := (find current [] t).2.child .left
    let right := (find current [] t).2.child .right
    let leftHeight := heightIn size left
    let rightHeight := heightIn size right
    let goOn (t : BinaryTree α) : Option (BinaryTree α) :=
      if t.item? = some current then some t
      else balanceTree size rotateOnce rounds t (findParent t current)
    if rightHeight = leftHeight + 2 then
      (if higher size .right right then rotateLeft t right.item?
        else doubleRotateLeft t current).bind fun t => if rotateOnce then some t else goOn t
    else if leftHeight = rightHeight + 2 then
      (if higher size .left left then rotateRight t left.item?
        else doubleRotateRight t current).bind fun t => if rotateOnce then some t else goOn t
    else goOn t

/-- A bound for the rounds of `BalanceTree`: two on every level. -/
def rounds (size : ℕ) : ℕ := 2 * size + 2

/-- `BinarySearchTree::Add`, with the node that it returns. -/
def addNode (s : AVLBalancedBinarySearchTree α) (input : α) :
    AVLBalancedBinarySearchTree α × Option α :=
  if s.binarySearchTreeSize = 0 then (⟨.node input .nil .nil, 1⟩, some input)
  else
    match find input [] s.root with
    | (frames, .nil) =>
      (⟨plug frames (.node input .nil .nil), s.binarySearchTreeSize + 1⟩, some input)
    | _ => (s, none)

/-- "Go right, then as left as far as you can" -/
def leftmost : List (Frame α) → BinaryTree α → List (Frame α) × BinaryTree α
  | frames, .node y (.node x a b) right =>
    leftmost (⟨.left, y, right⟩ :: frames) (.node x a b)
  | frames, t => (frames, t)

/-- The place of the node that `BinarySearchTree::Del` takes out, and the tree that its parent gets
there. A node with two children stays and gets the item of the next one, which is taken out. -/
def removal (input : α) (root : BinaryTree α) : Option (List (Frame α) × BinaryTree α) :=
  match find input [] root with
  | (_, .nil) => none
  | (frames, .node _ left right) =>
    if right.isNil ∧ left.isNil then some (frames, .nil)
    else if !right.isNil ∧ left.isNil then some (frames, right)
    else if right.isNil ∧ !left.isNil then some (frames, left)
    else
      match leftmost [] right with
      | (path, .node item _ currentRight) =>
        some (path ++ ⟨.right, item, left⟩ :: frames, currentRight)
      | (_, .nil) => none

/-- `BinarySearchTree::Del`, with the parent that it returns; the last node is deleted whatever the
input is. -/
def delNode (s : AVLBalancedBinarySearchTree α) (input : α) :
    AVLBalancedBinarySearchTree α × Option α :=
  if s.binarySearchTreeSize = 0 then (s, none)
  else if s.binarySearchTreeSize = 1 then (⟨.nil, 0⟩, none)
  else
    match removal input s.root with
    | none => (s, none)
    | some (frames, t) =>
      (⟨plug frames t, s.binarySearchTreeSize - 1⟩, frames.head?.map (·.item))

def balanced (s : AVLBalancedBinarySearchTree α × Option α) (rotateOnce : Bool) :
    Option (AVLBalancedBinarySearchTree α) :=
  (balanceTree s.1.binarySearchTreeSize rotateOnce (rounds s.1.binarySearchTreeSize) s.1.root
    s.2).map fun root => { s.1 with root := root }

def add (s : AVLBalancedBinarySearchTree α) (input : α) : Option (AVLBalancedBinarySearchTree α) :=
  balanced (s.addNode input) true

def del (s : AVLBalancedBinarySearchTree α) (input : α) : Option (AVLBalancedBinarySearchTree α) :=
  balanced (s.delNode input) false

inductive Operation (α : Type*)
  | add (input : α)
  | del (input : α)

def perform (s : AVLBalancedBinarySearchTree α) :
    Operation α → Option (AVLBalancedBinarySearchTree α)
  | .add input => s.add input
  | .del input => s.del input

def empty : AVLBalancedBinarySearchTree α := ⟨.nil, 0⟩

/-- A run from the empty tree; there is no state when a null pointer was followed or the loop did
not end. -/
def run (operations : List (Operation α)) : Option (AVLBalancedBinarySearchTree α) :=
  operations.foldl (fun s operation => s.bind fun s => s.perform operation) (some empty)

/-- The items that were added and not deleted since. -/
def content (operations : List (Operation α)) : Finset α :=
  operations.foldl (fun items operation => match operation with
    | .add input => insert input items
    | .del input => items.erase input) ∅

/-- A child on `side` that is too high has subtrees of one height, and the inner one, which its
double rotation takes apart, is lower on `side`. -/
def Lopsided (side : Side) (c : BinaryTree α) : Prop :=
  (c.child side).height = (c.child side.other).height ∧
    ((c.child side.other).child side).height < ((c.child side.other).child side.other).height

/-- On the way from a place whose tree was one higher before and has the height `h`, as long as
the subtrees get lower, a rotation meets such a child. -/
def Uneven : List (Frame α) → ℕ → Prop
  | [], _ => False
  | frame :: frames, h =>
    if frame.sibling.height = h + 2 then
      if (frame.sibling.child frame.side.other).height =
          (frame.sibling.child frame.side).height then
        Lopsided frame.side.other frame.sibling
      else Uneven frames (h + 2)
    else if frame.sibling.height = h then Uneven frames (h + 1)
    else False

/-- An operation for which the tree stays what it is: no deletion of another item than the only
one, and none that makes a rotation meet a lopsided child. -/
def Fine (s : AVLBalancedBinarySearchTree α) : Operation α → Prop
  | .add _ => True
  | .del input =>
    (s.binarySearchTreeSize = 1 → s.root.item? = some input) ∧
      (s.binarySearchTreeSize ≠ 1 → ∀ place, removal input s.root = some place →
        ¬ Uneven place.1 place.2.height)

structure WellFormed (s : AVLBalancedBinarySearchTree α) (items : Finset α) : Prop where
  sorted : Sorted s.root
  members : s.root.toList.toFinset = items
  size_eq : s.binarySearchTreeSize = items.card
  balanced : s.root.Balanced

end AVLBalancedBinarySearchTree

end SLikeNet
