import Mathlib.Data.List.Pairwise
import Mathlib.Order.Lattice
import Mathlib.Order.Defs.LinearOrder
import Mathlib.Tactic.Tauto
import Mathlib.Data.Tree.Basic

/-! Binary search trees with a place in them: what is around the place is the list of the nodes on
the way from it to the root, each with the subtree on its other side. -/

namespace BinaryTree

inductive Side
  | left
  | right
  deriving DecidableEq

def Side.other : Side → Side
  | .left => .right
  | .right => .left

variable {α : Type*}

/-- A node by its subtree on one side and that on the other one. -/
def make (side : Side) (near : BinaryTree α) (item : α) (far : BinaryTree α) : BinaryTree α :=
  match side with
  | .left => node item near far
  | .right => node item far near

def child (side : Side) : BinaryTree α → BinaryTree α
  | nil => nil
  | node _ left right => match side with
    | .left => left
    | .right => right

def isNil : BinaryTree α → Bool
  | nil => true
  | node _ _ _ => false

def item? : BinaryTree α → Option α
  | nil => none
  | node item _ _ => some item

def toList : BinaryTree α → List α
  | nil => []
  | node item left right => left.toList ++ item :: right.toList

/-- The heights of the two subtrees of every node differ by at most one. -/
def Balanced : BinaryTree α → Prop
  | nil => True
  | node _ left right =>
    left.Balanced ∧ right.Balanced ∧ left.height ≤ right.height + 1 ∧
      right.height ≤ left.height + 1

/-- A node on the way to a place: the place lies on `side` of it. -/
structure Frame (α : Type*) where
  side : Side
  item : α
  sibling : BinaryTree α
  deriving DecidableEq

def Frame.fill (frame : Frame α) (t : BinaryTree α) : BinaryTree α :=
  make frame.side t frame.item frame.sibling

/-- The whole tree with a tree at the place. -/
def plug : List (Frame α) → BinaryTree α → BinaryTree α
  | [], t => t
  | frame :: frames, t => plug frames (frame.fill t)

/-- The items in front of a place. -/
def before : List (Frame α) → List α
  | [] => []
  | frame :: frames => match frame.side with
    | .left => before frames
    | .right => before frames ++ (frame.sibling.toList ++ [frame.item])

def after : List (Frame α) → List α
  | [] => []
  | frame :: frames => match frame.side with
    | .left => frame.item :: (frame.sibling.toList ++ after frames)
    | .right => after frames

@[simp] theorem other_other (side : Side) : side.other.other = side := by
  cases side <;> rfl

@[simp] theorem child_make_same (side : Side) (near far : BinaryTree α) (item : α) :
    (make side near item far).child side = near := by
  cases side <;> rfl

@[simp] theorem child_make_other (side : Side) (near far : BinaryTree α) (item : α) :
    (make side near item far).child side.other = far := by
  cases side <;> rfl

@[simp] theorem item?_make (side : Side) (near far : BinaryTree α) (item : α) :
    (make side near item far).item? = some item := by
  cases side <;> rfl

theorem make_other (side : Side) (near far : BinaryTree α) (item : α) :
    make side.other near item far = make side far item near := by
  cases side <;> rfl

theorem height_make (side : Side) (near far : BinaryTree α) (item : α) :
    (make side near item far).height = max near.height far.height + 1 := by
  cases side with
  | left => rfl
  | right => rw [make, height, Nat.max_comm]

theorem balanced_make {side : Side} {near far : BinaryTree α} {item : α} :
    (make side near item far).Balanced ↔
      near.Balanced ∧ far.Balanced ∧ near.height ≤ far.height + 1 ∧
        far.height ≤ near.height + 1 := by
  cases side with
  | left => rfl
  | right =>
    rw [make, Balanced]
    tauto

theorem exists_make (side : Side) {t : BinaryTree α} (h : 0 < t.height) :
    ∃ near item far, t = make side near item far := by
  cases t with
  | nil => exact absurd h (Nat.lt_irrefl 0)
  | node x l r =>
    cases side with
    | left => exact ⟨l, x, r, rfl⟩
    | right => exact ⟨r, x, l, rfl⟩

/-! ### The items of a tree with a place -/

theorem toList_fill (frame : Frame α) (t : BinaryTree α) :
    (frame.fill t).toList = before [frame] ++ t.toList ++ after [frame] := by
  obtain ⟨side, item, sibling⟩ := frame
  cases side <;> simp [Frame.fill, make, toList, before, after]

theorem mem_fill_of_mem {frame : Frame α} {t : BinaryTree α} {x : α} (hx : x ∈ t.toList) :
    x ∈ (frame.fill t).toList := by
  rw [toList_fill]
  exact List.mem_append_left _ (List.mem_append_right _ hx)

theorem toList_plug (frames : List (Frame α)) (t : BinaryTree α) :
    (plug frames t).toList = before frames ++ t.toList ++ after frames := by
  induction frames generalizing t with
  | nil => simp [plug, before, after]
  | cons frame frames ih =>
    rw [plug, ih, toList_fill]
    obtain ⟨side, item, sibling⟩ := frame
    cases side <;> simp [before, after]

theorem toList_plug_congr {t t' : BinaryTree α} (h : t.toList = t'.toList)
    (frames : List (Frame α)) : (plug frames t).toList = (plug frames t').toList := by
  rw [toList_plug, toList_plug, h]

theorem plug_append (frames frames' : List (Frame α)) (t : BinaryTree α) :
    plug (frames ++ frames') t = plug frames' (plug frames t) := by
  induction frames generalizing t with
  | nil => rfl
  | cons frame frames ih => exact ih (frame.fill t)

theorem length_le_plug (frames : List (Frame α)) (t : BinaryTree α) :
    frames.length ≤ (plug frames t).toList.length := by
  induction frames generalizing t with
  | nil => exact Nat.zero_le _
  | cons frame frames ih =>
    rw [toList_plug, List.length_append, List.length_append]
    have hframes := ih .nil
    rw [toList_plug, List.length_append, List.length_append] at hframes
    obtain ⟨side, item, sibling⟩ := frame
    cases side <;> simp [before, after, toList] at hframes ⊢ <;> omega

/-! ### Heights around a place -/

/-- A tree that has this height and is balanced makes the whole one balanced. -/
def Hole : List (Frame α) → ℕ → Prop
  | [], _ => True
  | frame :: frames, h =>
    frame.sibling.Balanced ∧ h ≤ frame.sibling.height + 1 ∧ frame.sibling.height ≤ h + 1 ∧
      Hole frames (max h frame.sibling.height + 1)

theorem balanced_plug {frames : List (Frame α)} {t : BinaryTree α} :
    (plug frames t).Balanced ↔ t.Balanced ∧ Hole frames t.height := by
  induction frames generalizing t with
  | nil => simp [plug, Hole]
  | cons frame frames ih =>
    rw [plug, ih, Frame.fill, balanced_make, height_make, Hole]
    tauto

/-! ### Search -/

variable [LinearOrder α]

def Sorted (t : BinaryTree α) : Prop := t.toList.Pairwise (· < ·)

/-- The way down to an item, and the subtree there. -/
def find (element : α) : List (Frame α) → BinaryTree α → List (Frame α) × BinaryTree α
  | frames, nil => (frames, nil)
  | frames, node item left right =>
    if element = item then (frames, node item left right)
    else if element < item then find element (⟨.left, item, right⟩ :: frames) left
    else find element (⟨.right, item, left⟩ :: frames) right

/-- On the search for the item one goes to the side of the place. -/
def Frame.Admits (frame : Frame α) (x : α) : Prop :=
  match frame.side with
  | .left => x < frame.item
  | .right => frame.item < x

theorem sorted_of_plug {frames : List (Frame α)} {t : BinaryTree α} (h : Sorted (plug frames t)) :
    Sorted t := by
  rw [Sorted, toList_plug] at h
  exact (List.pairwise_append.mp (List.pairwise_append.mp h).1).2.1

theorem sorted_plug_congr {frames : List (Frame α)} {t t' : BinaryTree α}
    (h : Sorted (plug frames t)) (heq : t.toList = t'.toList) : Sorted (plug frames t') := by
  rw [Sorted, ← toList_plug_congr heq]
  exact h

theorem admits_of_sorted_fill {frame : Frame α} {t : BinaryTree α} (h : Sorted (frame.fill t))
    {x : α} (hx : x ∈ t.toList) : frame.Admits x := by
  obtain ⟨side, item, sibling⟩ := frame
  rw [Sorted, toList_fill] at h
  cases side with
  | left =>
    have hafter := (List.pairwise_append.mp h).2.2
    exact hafter x (List.mem_append_right _ hx) item (by simp [after])
  | right =>
    have hbefore := (List.pairwise_append.mp (List.pairwise_append.mp h).1).2.2
    exact hbefore item (by simp [before]) x hx

theorem admits_of_sorted {frames : List (Frame α)} {t : BinaryTree α} (h : Sorted (plug frames t))
    {x : α} (hx : x ∈ t.toList) : ∀ frame ∈ frames, frame.Admits x := by
  induction frames generalizing t with
  | nil => simp
  | cons frame frames ih =>
    rw [plug] at h
    intro frame' hframe
    rcases List.mem_cons.mp hframe with rfl | hrest
    · exact admits_of_sorted_fill (sorted_of_plug h) hx
    · exact ih h (mem_fill_of_mem hx) frame' hrest

theorem find_fill {frame : Frame α} {x : α} (h : frame.Admits x) (frames : List (Frame α))
    (t : BinaryTree α) : find x frames (frame.fill t) = find x (frame :: frames) t := by
  obtain ⟨side, item, sibling⟩ := frame
  cases side with
  | left =>
    have hlt : x < item := h
    rw [Frame.fill, make]
    dsimp only
    rw [find, if_neg hlt.ne, if_pos hlt]
  | right =>
    have hlt : item < x := h
    rw [Frame.fill, make]
    dsimp only
    rw [find, if_neg hlt.ne', if_neg hlt.not_gt]

theorem find_plug {frames : List (Frame α)} {x : α} (h : ∀ frame ∈ frames, frame.Admits x)
    (above : List (Frame α)) (t : BinaryTree α) :
    find x above (plug frames t) = find x (frames ++ above) t := by
  induction frames generalizing t with
  | nil => rfl
  | cons frame frames ih =>
    rw [plug, ih (fun frame' hframe => h frame' (List.mem_cons_of_mem _ hframe)),
      find_fill (h frame List.mem_cons_self), List.cons_append]

theorem find_root {frames : List (Frame α)} {side : Side} {near far : BinaryTree α} {x : α} :
    find x frames (make side near x far) = (frames, make side near x far) := by
  cases side <;> simp [make, find]

/-- In a search tree the root of a subtree is found at its place. -/
theorem find_place {frames : List (Frame α)} {side : Side} {near far : BinaryTree α} {x : α}
    (h : Sorted (plug frames (make side near x far))) :
    find x [] (plug frames (make side near x far)) = (frames, make side near x far) := by
  have hx : x ∈ (make side near x far).toList := by cases side <;> simp [make, toList]
  rw [find_plug (admits_of_sorted h hx), List.append_nil, find_root]

/-- The search goes through the tree as it is. -/
theorem plug_find (x : α) (frames : List (Frame α)) (t : BinaryTree α) :
    plug (find x frames t).1 (find x frames t).2 = plug frames t := by
  induction t generalizing frames with
  | nil => rfl
  | node y l r ihl ihr =>
    rw [find]
    split
    · rfl
    · split
      · exact ihl _
      · exact ihr _

theorem admits_find {x : α} {frames : List (Frame α)} (h : ∀ frame ∈ frames, frame.Admits x)
    (t : BinaryTree α) : ∀ frame ∈ (find x frames t).1, frame.Admits x := by
  induction t generalizing frames with
  | nil => exact h
  | node y l r ihl ihr =>
    rw [find]
    split
    · exact h
    · rename_i hne
      split
      · rename_i hlt
        exact ihl (List.forall_mem_cons.mpr ⟨hlt, h⟩)
      · rename_i hge
        exact ihr (List.forall_mem_cons.mpr ⟨lt_of_le_of_ne (le_of_not_gt hge) (Ne.symm hne), h⟩)

/-- What is found has the item at its root. -/
theorem item?_find {x : α} {frames : List (Frame α)} {t : BinaryTree α} {side : Side}
    {near far : BinaryTree α} {item : α} (h : (find x frames t).2 = make side near item far) :
    item = x := by
  induction t generalizing frames with
  | nil => cases side <;> cases h
  | node y l r ihl ihr =>
    rw [find] at h
    split at h
    · rename_i heq
      have hitem := congrArg item? h
      rw [item?_make] at hitem
      exact (Option.some.inj hitem).symm.trans heq.symm
    · split at h
      · exact ihl h
      · exact ihr h

/-- A place where one goes in search of an item has only smaller ones before it and greater ones
behind it. -/
theorem between_of_admits {frames : List (Frame α)} {t : BinaryTree α} {x : α}
    (hsorted : Sorted (plug frames t)) (h : ∀ frame ∈ frames, frame.Admits x) :
    (∀ y ∈ before frames, y < x) ∧ ∀ y ∈ after frames, x < y := by
  induction frames generalizing t with
  | nil => simp [before, after]
  | cons frame frames ih =>
    rw [plug] at hsorted
    obtain ⟨hbefore, hafter⟩ := ih hsorted fun frame' hframe =>
      h frame' (List.mem_cons_of_mem _ hframe)
    have hhead := h frame List.mem_cons_self
    have hfill := sorted_of_plug hsorted
    obtain ⟨side, item, sibling⟩ := frame
    rw [Sorted, toList_fill] at hfill
    cases side with
    | left =>
      refine ⟨hbefore, fun y hy => ?_⟩
      have hlt : x < item := hhead
      have hpair := (List.pairwise_append.mp hfill).2.1
      simp only [after, List.append_nil, List.pairwise_cons] at hpair
      simp only [after, List.mem_cons, List.mem_append] at hy
      rcases hy with rfl | hy | hy
      · exact hlt
      · exact hlt.trans (hpair.1 y hy)
      · exact hafter y hy
    | right =>
      refine ⟨fun y hy => ?_, hafter⟩
      have hlt : item < x := hhead
      have hpair := (List.pairwise_append.mp (List.pairwise_append.mp hfill).1).1
      simp only [before, List.nil_append, List.pairwise_append, List.mem_singleton] at hpair
      simp only [before, List.mem_append, List.mem_singleton] at hy
      rcases hy with hy | hy | rfl
      · exact hbefore y hy
      · exact (hpair.2.2 y hy item rfl).trans hlt
      · exact hlt

/-- Where the search for an item ends at no node, the item is not in the tree. -/
theorem not_mem_of_find {x : α} {t : BinaryTree α} (hsorted : Sorted t)
    (h : (find x [] t).2 = nil) : x ∉ t.toList := by
  have hplug := plug_find x [] t
  rw [h] at hplug
  have hplace : Sorted (plug (find x [] t).1 nil) := by
    rw [hplug]
    exact hsorted
  have hbetween := between_of_admits hplace (admits_find (by simp) t)
  rw [show t = plug [] t from rfl, ← hplug, toList_plug]
  simp only [toList, List.append_nil, List.mem_append, not_or]
  exact ⟨fun hx => lt_irrefl x (hbetween.1 x hx), fun hx => lt_irrefl x (hbetween.2 x hx)⟩

end BinaryTree
