import Mathlib.Data.List.Nodup
import SLikeNet.StreamWrites

/-! `HuffmanEncodingTree`: a tree is made from the weights of the 256 characters by merging the two
lightest trees of a sorted list again and again, and gives each character the path to its leaf. -/

namespace SLikeNet

open BitCursor PacketReads

/-- `DataStructures::LinkedList`: the items from the root on, and the place of the current one. -/
structure LinkedList (α : Type) where
  items : List α
  position : ℕ

namespace LinkedList

variable {α : Type}

def empty : LinkedList α := ⟨[], 0⟩

def size (l : LinkedList α) : ℕ := l.items.length

/-- `Beginning` -/
def toBeginning (l : LinkedList α) : LinkedList α := ⟨l.items, 0⟩

/-- `End`: in front of the root, once around. -/
def toEnd (l : LinkedList α) : LinkedList α := ⟨l.items, l.items.length - 1⟩

/-- `operator++` -/
def next (l : LinkedList α) : LinkedList α :=
  if l.position + 1 < l.items.length then ⟨l.items, l.position + 1⟩ else l

def peek (l : LinkedList α) : Option α := l.items[l.position]?

/-- `Insert`, in front of the current item; an item in front of the root is the new root. -/
def insert (l : LinkedList α) (input : α) : LinkedList α :=
  if l.items.length ≤ 1 ∨ l.position = 0 then ⟨input :: l.items, 0⟩
  else ⟨l.items.insertIdx l.position input, l.position + 1⟩

/-- `Add`, behind the current item. -/
def add (l : LinkedList α) (input : α) : LinkedList α :=
  if l.items.length ≤ 1 then ⟨l.items ++ [input], 0⟩
  else ⟨l.items.insertIdx (l.position + 1) input, l.position⟩

/-- `Del`: the item behind the current one is the next current one, or the root at the end. -/
def del (l : LinkedList α) : LinkedList α :=
  ⟨l.items.eraseIdx l.position, if l.position + 1 < l.items.length then l.position else 0⟩

def pop (l : LinkedList α) : Option (α × LinkedList α) := l.peek.map fun element => (element, l.del)

end LinkedList

/-- A tree while it is in the list, with its weight. -/
structure WeightedTree where
  weight : UInt32
  tree : HuffmanEncodingTreeNode

namespace HuffmanEncodingTree

/-- The search of `InsertNodeIntoSortedList` from the current item, where so many are left. -/
def insertFrom (node : WeightedTree) : ℕ → LinkedList WeightedTree → Option (LinkedList WeightedTree)
  | 0, l => some (l.toEnd.add node)
  | remaining + 1, l =>
    l.peek.bind fun item =>
      if item.weight < node.weight then insertFrom node remaining l.next else some (l.insert node)

def insertNodeIntoSortedList (node : WeightedTree) (l : LinkedList WeightedTree) :
    Option (LinkedList WeightedTree) :=
  if l.size = 0 then some (l.insert node) else insertFrom node l.size l.toBeginning

/-- A leaf; weights of 0 are illegal. -/
def leafOf (frequencyTable : UInt8 → UInt32) (counter : UInt8) : WeightedTree :=
  ⟨if frequencyTable counter = 0 then 1 else frequencyTable counter, .leaf counter⟩

def merge (lesser greater : WeightedTree) : WeightedTree :=
  ⟨lesser.weight + greater.weight, .node lesser.tree greater.tree⟩

/-- The loop that merges the two lightest trees, for so many times at most. -/
def mergeTrees : ℕ → LinkedList WeightedTree → Option HuffmanEncodingTreeNode
  | 0, _ => none
  | fuel + 1, l =>
    l.toBeginning.pop.bind fun (lesser, l) =>
      l.pop.bind fun (greater, l) =>
        if l.size = 0 then some (merge lesser greater).tree
        else (insertNodeIntoSortedList (merge lesser greater) l).bind (mergeTrees fuel)

def characters : List UInt8 := (List.range 256).map UInt8.ofNat

def generateFromFrequencyTable (frequencyTable : UInt8 → UInt32) : Option HuffmanEncodingTreeNode :=
  (characters.foldlM (fun l counter => insertNodeIntoSortedList (leafOf frequencyTable counter) l)
    LinkedList.empty).bind (mergeTrees 256)

/-! ### Codes -/

/-- The bits of the path from the leaf of a character up to the root. -/
def tempPath (value : UInt8) : HuffmanEncodingTreeNode → Option (List Bool)
  | .leaf value' => if value' = value then some [] else none
  | .node left right =>
    ((tempPath value left).map fun path => path ++ [false]).or
      ((tempPath value right).map fun path => path ++ [true])

variable (root : HuffmanEncodingTreeNode)

/-- `encodingTable[value].encoding` -/
def encoding (value : UInt8) : List Bool := ((tempPath value root).getD []).reverse

/-- `encodingTable[value].bitLength`, which is stored from an `unsigned char`. -/
def bitLength (value : UInt8) : ℕ := (encoding root value).length % 256

/-- The loop of `EncodeArray`. -/
def writeEncodings : List UInt8 → ℕ → List Bool → Option (List Bool)
  | _, 0, output => some output
  | [], _ + 1, _ => none
  | value :: input, sizeInBytes + 1, output =>
    writeEncodings input sizeInBytes (output ++ (encoding root value).take (bitLength root value))

/-- The rest of the last byte is the start of a code that is longer. -/
def padToByte (output : List Bool) : List Bool :=
  if output.length % 8 ≠ 0 then
    let remainingBits := 8 - output.length % 8
    match characters.find? fun counter => remainingBits < bitLength root counter with
    | some counter => output ++ (encoding root counter).take remainingBits
    | none => output
  else output

/-- `EncodeArray` into an empty stream. The counter has 32 bits and never comes up to a size that
has more; a read behind the input has no result. -/
def encodeArray (input : List UInt8) (sizeInBytes : ℕ) : Option (List Bool) :=
  if sizeInBytes < 2 ^ 32 then (writeEncodings root input sizeInBytes []).map (padToByte root)
  else none

/-! ### Every character has one leaf -/

variable {root}

def leaves : HuffmanEncodingTreeNode → List UInt8
  | .leaf value => [value]
  | .node left right => leaves left ++ leaves right

def leavesOf (items : List WeightedTree) : List UInt8 := items.flatMap fun item => leaves item.tree

theorem leavesOf_perm {items items' : List WeightedTree} (h : items.Perm items') :
    (leavesOf items).Perm (leavesOf items') := h.flatMap_right _

theorem insert_perm {α : Type} (l : LinkedList α) (input : α)
    (hposition : l.position ≤ l.items.length) :
    (l.insert input).items.Perm (input :: l.items) := by
  unfold LinkedList.insert
  split
  · exact List.Perm.refl _
  · exact List.perm_insertIdx _ _ hposition

theorem add_perm {α : Type} (l : LinkedList α) (input : α)
    (hposition : l.items = [] ∨ l.position < l.items.length) :
    (l.add input).items.Perm (input :: l.items) := by
  unfold LinkedList.add
  split
  · exact List.perm_append_singleton _ _
  · rename_i hlong
    refine List.perm_insertIdx _ _ ?_
    rcases hposition with hnil | hlt
    · rw [hnil] at hlong
      exact absurd (Nat.zero_le 1) hlong
    · exact hlt

theorem pop_cons {α : Type} (item : α) (items : List α) :
    (LinkedList.mk (item :: items) 0).pop = some (item, ⟨items, 0⟩) := by
  unfold LinkedList.pop LinkedList.del
  dsimp only
  split <;> rfl

theorem length_characters : characters.length = 256 := by
  rw [characters, List.length_map, List.length_range]

theorem insertFrom_perm (node : WeightedTree) (remaining : ℕ) {l : LinkedList WeightedTree}
    (hposition : l.position < l.items.length) :
    ∃ l', insertFrom node remaining l = some l' ∧ l'.items.Perm (node :: l.items) := by
  induction remaining generalizing l with
  | zero =>
    refine ⟨_, rfl, add_perm l.toEnd node (Or.inr ?_)⟩
    show l.items.length - 1 < l.items.length
    omega
  | succ remaining ih =>
    have hpeek : l.peek = some (l.items[l.position]) := List.getElem?_eq_getElem hposition
    have hstep : insertFrom node (remaining + 1) l =
        if (l.items[l.position]).weight < node.weight then insertFrom node remaining l.next
        else some (l.insert node) := by
      rw [insertFrom, hpeek, Option.bind_some]
    rw [hstep]
    by_cases hlighter : (l.items[l.position]).weight < node.weight
    · rw [if_pos hlighter]
      have hnext : l.next.items = l.items ∧ l.next.position < l.items.length := by
        unfold LinkedList.next
        split
        · exact ⟨rfl, by assumption⟩
        · exact ⟨rfl, hposition⟩
      obtain ⟨l', hrun, hperm⟩ := @ih l.next (by rw [hnext.1]; exact hnext.2)
      rw [hnext.1] at hperm
      exact ⟨l', hrun, hperm⟩
    · rw [if_neg hlighter]
      exact ⟨_, rfl, insert_perm l node hposition.le⟩

theorem insertNodeIntoSortedList_perm (node : WeightedTree) (l : LinkedList WeightedTree) :
    ∃ l', insertNodeIntoSortedList node l = some l' ∧ l'.items.Perm (node :: l.items) := by
  unfold insertNodeIntoSortedList LinkedList.size
  by_cases hempty : l.items.length = 0
  · rw [if_pos hempty]
    refine ⟨_, rfl, ?_⟩
    unfold LinkedList.insert
    rw [if_pos (Or.inl (by omega))]
  · rw [if_neg hempty]
    exact insertFrom_perm node l.items.length (l := l.toBeginning) (Nat.pos_of_ne_zero hempty)

theorem insertLeaves_perm (frequencyTable : UInt8 → UInt32) (values : List UInt8)
    (l : LinkedList WeightedTree) :
    ∃ l', values.foldlM (fun l counter =>
        insertNodeIntoSortedList (leafOf frequencyTable counter) l) l = some l' ∧
      l'.items.length = values.length + l.items.length ∧
      (leavesOf l'.items).Perm (values ++ leavesOf l.items) := by
  induction values generalizing l with
  | nil => exact ⟨l, rfl, (Nat.zero_add _).symm, List.Perm.refl _⟩
  | cons value values ih =>
    obtain ⟨l₁, hfirst, hperm⟩ := insertNodeIntoSortedList_perm (leafOf frequencyTable value) l
    obtain ⟨l', hrest, hlength, hleaves⟩ := ih l₁
    have hfirstLeaves : (leavesOf l₁.items).Perm (value :: leavesOf l.items) := leavesOf_perm hperm
    have hfirstLength := hperm.length_eq
    rw [List.length_cons] at hfirstLength
    refine ⟨l', ?_, ?_, ?_⟩
    · rw [List.foldlM_cons, hfirst]
      exact hrest
    · rw [hlength, hfirstLength, List.length_cons]
      omega
    · exact (hleaves.trans (hfirstLeaves.append_left values)).trans List.perm_middle

theorem mergeTrees_perm (fuel : ℕ) {l : LinkedList WeightedTree} (hlong : 2 ≤ l.items.length)
    (hfuel : l.items.length ≤ fuel + 1) :
    ∃ left right, mergeTrees fuel l = some (.node left right) ∧
      (leaves (.node left right)).Perm (leavesOf l.items) := by
  induction fuel generalizing l with
  | zero => omega
  | succ fuel ih =>
    obtain ⟨items, position⟩ := l
    cases items with
    | nil => simp at hlong
    | cons lesser items =>
      cases items with
      | nil => simp at hlong
      | cons greater items =>
        have hstep : mergeTrees (fuel + 1) ⟨lesser :: greater :: items, position⟩ =
            if items.length = 0 then some (merge lesser greater).tree
            else (insertNodeIntoSortedList (merge lesser greater) ⟨items, 0⟩).bind
              (mergeTrees fuel) := by
          rw [mergeTrees, LinkedList.toBeginning, pop_cons, Option.bind_some]
          dsimp only
          rw [pop_cons, Option.bind_some]
          rfl
        have hmerged : leaves (merge lesser greater).tree = leaves lesser.tree ++ leaves greater.tree :=
          rfl
        rw [hstep]
        by_cases hlast : items.length = 0
        · rw [if_pos hlast]
          obtain rfl := List.eq_nil_of_length_eq_zero hlast
          refine ⟨lesser.tree, greater.tree, rfl, ?_⟩
          show (leaves lesser.tree ++ leaves greater.tree).Perm
            (leaves lesser.tree ++ (leaves greater.tree ++ []))
          rw [List.append_nil]
        · rw [if_neg hlast]
          obtain ⟨l', hinsert, hperm⟩ :=
            insertNodeIntoSortedList_perm (merge lesser greater) ⟨items, 0⟩
          have hlength := hperm.length_eq
          simp only [List.length_cons] at hlength hlong hfuel
          obtain ⟨left, right, hrun, hleaves⟩ := @ih l' (by omega) (by omega)
          refine ⟨left, right, by rw [hinsert]; exact hrun, hleaves.trans ?_⟩
          refine (leavesOf_perm hperm).trans ?_
          show ((leaves lesser.tree ++ leaves greater.tree) ++ leavesOf items).Perm
            (leaves lesser.tree ++ (leaves greater.tree ++ leavesOf items))
          rw [List.append_assoc]

theorem generateFromFrequencyTable_eq (frequencyTable : UInt8 → UInt32) :
    ∃ left right, generateFromFrequencyTable frequencyTable = some (.node left right) ∧
      (leaves (.node left right)).Perm characters := by
  obtain ⟨l, hrun, hlength, hleaves⟩ :=
    insertLeaves_perm frequencyTable characters LinkedList.empty
  have hcount : l.items.length = 256 := by
    rw [hlength, length_characters]
    rfl
  obtain ⟨left, right, hmerge, hperm⟩ := @mergeTrees_perm 256 l (by omega) (by omega)
  refine ⟨left, right, ?_, hperm.trans (hleaves.trans ?_)⟩
  · rw [generateFromFrequencyTable, hrun]
    exact hmerge
  · show (characters ++ []).Perm characters
    rw [List.append_nil]

/-! ### Paths -/

/-- The way from a node down to the leaf of a character, where 1 leads to the right. -/
inductive LeafAt : HuffmanEncodingTreeNode → List Bool → UInt8 → Prop
  | leaf (value : UInt8) : LeafAt (.leaf value) [] value
  | left {left right : HuffmanEncodingTreeNode} {path : List Bool} {value : UInt8} :
    LeafAt left path value → LeafAt (.node left right) (false :: path) value
  | right {left right : HuffmanEncodingTreeNode} {path : List Bool} {value : UInt8} :
    LeafAt right path value → LeafAt (.node left right) (true :: path) value

theorem LeafAt.mem_leaves {path : List Bool} {value : UInt8} (h : LeafAt root path value) :
    value ∈ leaves root := by
  induction h with
  | leaf value => exact List.mem_singleton_self value
  | left _ ih => exact List.mem_append_left _ ih
  | right _ ih => exact List.mem_append_right _ ih

theorem exists_leafAt {value : UInt8} (h : value ∈ leaves root) :
    ∃ path, LeafAt root path value := by
  induction root with
  | leaf value' =>
    obtain rfl := List.mem_singleton.mp h
    exact ⟨[], .leaf value⟩
  | node left right ihl ihr =>
    rcases List.mem_append.mp h with h | h
    · obtain ⟨path, hpath⟩ := ihl h
      exact ⟨false :: path, hpath.left⟩
    · obtain ⟨path, hpath⟩ := ihr h
      exact ⟨true :: path, hpath.right⟩

theorem leaves_pos (t : HuffmanEncodingTreeNode) : 0 < (leaves t).length := by
  induction t with
  | leaf value => exact Nat.one_pos
  | node left right ihl _ =>
    rw [leaves, List.length_append]
    omega

theorem LeafAt.length_lt {path : List Bool} {value : UInt8} (h : LeafAt root path value) :
    path.length < (leaves root).length := by
  induction h with
  | leaf value => exact Nat.one_pos
  | @left left right path value _ ih =>
    have hright := leaves_pos right
    rw [leaves, List.length_append, List.length_cons]
    omega
  | @right left right path value _ ih =>
    have hleft := leaves_pos left
    rw [leaves, List.length_append, List.length_cons]
    omega

theorem length_leaves_le {depth : ℕ}
    (h : ∀ path value, LeafAt root path value → path.length ≤ depth) :
    (leaves root).length ≤ 2 ^ depth := by
  induction root generalizing depth with
  | leaf value => exact Nat.one_le_two_pow
  | node left right ihl ihr =>
    cases depth with
    | zero =>
      obtain ⟨value, hvalue⟩ := List.exists_mem_of_length_pos (leaves_pos left)
      obtain ⟨path, hpath⟩ := exists_leafAt hvalue
      exact absurd (h _ value (.left hpath)) (Nat.not_succ_le_zero path.length)
    | succ depth =>
      have hl := @ihl depth fun path value hpath => Nat.le_of_succ_le_succ (h _ _ hpath.left)
      have hr := @ihr depth fun path value hpath => Nat.le_of_succ_le_succ (h _ _ hpath.right)
      rw [leaves, List.length_append, Nat.pow_succ]
      omega

theorem tempPath_of_not_mem {value : UInt8} (h : value ∉ leaves root) :
    tempPath value root = none := by
  induction root with
  | leaf value' =>
    rw [tempPath, if_neg]
    rintro rfl
    exact h (List.mem_singleton_self _)
  | node left right ihl ihr =>
    rw [tempPath, ihl fun hmem => h (List.mem_append_left _ hmem),
      ihr fun hmem => h (List.mem_append_right _ hmem)]
    rfl

theorem tempPath_of_leafAt {path : List Bool} {value : UInt8} (h : LeafAt root path value)
    (hnodup : (leaves root).Nodup) : tempPath value root = some path.reverse := by
  induction h with
  | leaf value => rw [tempPath, if_pos rfl, List.reverse_nil]
  | left _ ih =>
    rw [tempPath, ih (List.Nodup.of_append_left hnodup), List.reverse_cons]
    rfl
  | @right left right path value hpath ih =>
    have hdisjoint := List.disjoint_of_nodup_append hnodup
    have hnot : value ∉ leaves left := fun hmem => hdisjoint hmem hpath.mem_leaves
    rw [tempPath, tempPath_of_not_mem hnot, ih (List.Nodup.of_append_right hnodup),
      List.reverse_cons]
    rfl

/-! ### Complete trees -/

/-- Every character has one leaf. -/
def Complete (t : HuffmanEncodingTreeNode) : Prop := (leaves t).Perm characters

theorem nodup_characters : characters.Nodup := by
  refine List.Nodup.map_on (fun n hn m hm heq => ?_) List.nodup_range
  have hnat := congrArg UInt8.toNat heq
  rw [UInt8.toNat_ofNat', UInt8.toNat_ofNat', Nat.mod_eq_of_lt (List.mem_range.mp hn),
    Nat.mod_eq_of_lt (List.mem_range.mp hm)] at hnat
  exact hnat

theorem mem_characters (value : UInt8) : value ∈ characters :=
  List.mem_map.mpr ⟨value.toNat, List.mem_range.mpr (UInt8.toNat_lt value), UInt8.ofNat_toNat⟩

theorem Complete.leafAt (h : Complete root) (value : UInt8) :
    LeafAt root (encoding root value) value := by
  obtain ⟨path, hpath⟩ := exists_leafAt (h.mem_iff.mpr (mem_characters value))
  have htemp := tempPath_of_leafAt hpath (h.nodup_iff.mpr nodup_characters)
  rw [encoding, htemp, Option.getD_some, List.reverse_reverse]
  exact hpath

theorem Complete.encoding_eq (h : Complete root) {path : List Bool} {value : UInt8}
    (hpath : LeafAt root path value) : encoding root value = path := by
  rw [encoding, tempPath_of_leafAt hpath (h.nodup_iff.mpr nodup_characters), Option.getD_some,
    List.reverse_reverse]

theorem Complete.length_leaves (h : Complete root) : (leaves root).length = 256 :=
  h.length_eq.trans length_characters

theorem Complete.length_encoding_lt (h : Complete root) (value : UInt8) :
    (encoding root value).length < 256 := by
  rw [← h.length_leaves]
  exact (h.leafAt value).length_lt

theorem Complete.bitLength_eq (h : Complete root) (value : UInt8) :
    bitLength root value = (encoding root value).length :=
  Nat.mod_eq_of_lt (h.length_encoding_lt value)

theorem Complete.encoding_ne_nil (h : Complete root) (value : UInt8) : encoding root value ≠ [] := by
  intro hnil
  have hleaf := h.leafAt value
  have hcount := h.length_leaves
  rw [hnil] at hleaf
  cases hleaf
  have hone : 1 = 256 := hcount
  omega

theorem Complete.exists_long (h : Complete root) :
    ∃ value, 8 ≤ (encoding root value).length := by
  by_contra hshort
  push Not at hshort
  have hle := @length_leaves_le root 7 fun path value hpath => by
    have hvalue := hshort value
    rw [h.encoding_eq hpath] at hvalue
    omega
  rw [h.length_leaves] at hle
  exact absurd hle (by decide)

theorem Complete.padToByte_eq (h : Complete root) (output : List Bool) :
    ∃ pad more value, padToByte root output = output ++ pad ∧ (output ++ pad).length % 8 = 0 ∧
      pad.length < 8 ∧ LeafAt root (pad ++ more) value ∧ more ≠ [] := by
  by_cases haligned : output.length % 8 = 0
  · refine ⟨[], encoding root 0, 0, ?_, ?_, by decide, h.leafAt 0, h.encoding_ne_nil 0⟩
    · rw [padToByte, if_neg (fun hne => hne haligned), List.append_nil]
    · rw [List.append_nil]
      exact haligned
  · obtain ⟨long, hlong⟩ := h.exists_long
    have hfound : (characters.find? fun counter =>
        8 - output.length % 8 < bitLength root counter).isSome := by
      refine List.find?_isSome.mpr ⟨long, mem_characters long, ?_⟩
      rw [h.bitLength_eq, decide_eq_true]
      omega
    obtain ⟨counter, hcounter⟩ := Option.isSome_iff_exists.mp hfound
    have hlonger := List.find?_some hcounter
    rw [h.bitLength_eq] at hlonger
    have hlt : 8 - output.length % 8 < (encoding root counter).length := of_decide_eq_true hlonger
    have hpad : ((encoding root counter).take (8 - output.length % 8)).length =
        8 - output.length % 8 := by
      rw [List.length_take]
      omega
    refine ⟨(encoding root counter).take (8 - output.length % 8),
      (encoding root counter).drop (8 - output.length % 8), counter, ?_, ?_, ?_, ?_, ?_⟩
    · rw [padToByte, if_pos haligned]
      dsimp only
      rw [hcounter]
    · rw [List.length_append, hpad]
      omega
    · omega
    · rw [List.take_append_drop]
      exact h.leafAt counter
    · intro hnil
      have hzero := congrArg List.length hnil
      rw [List.length_drop, List.length_nil] at hzero
      omega

/-! ### What is decoded -/

section Decoding

variable {c : Cursor} {b : Bool} {rest : List Bool} {left right : HuffmanEncodingTreeNode} {n : ℕ}

theorem LeafAt.child {t : HuffmanEncodingTreeNode} {path : List Bool} {value : UInt8}
    (h : LeafAt t (b :: path) value) :
    ∃ left right, t = .node left right ∧ LeafAt (if b then right else left) path value := by
  cases h with
  | left hpath => exact ⟨_, _, rfl, hpath⟩
  | right hpath => exact ⟨_, _, rfl, hpath⟩

theorem decodeArrayFrom_leaf {value : UInt8} (hahead : c.Ahead (b :: rest))
    (hchild : (if b then right else left) = .leaf value) :
    decodeArrayFrom root (n + 1) (.node left right) c =
      (decodeArrayFrom root n root (c.advance 1)).map fun p => (value :: p.1, p.2) := by
  refine (bind_of_run (readBit_ahead hahead)).trans ?_
  dsimp only
  rw [hchild]
  show Option.bind _ _ = _
  rw [Option.map_eq_bind]
  rfl

theorem decodeArrayFrom_node {left' right' : HuffmanEncodingTreeNode} (hahead : c.Ahead (b :: rest))
    (hchild : (if b then right else left) = .node left' right') :
    decodeArrayFrom root (n + 1) (.node left right) c =
      decodeArrayFrom root n (.node left' right') (c.advance 1) := by
  refine (bind_of_run (readBit_ahead hahead)).trans ?_
  dsimp only
  rw [hchild]

theorem decodeArrayFrom_leafAt {t : HuffmanEncodingTreeNode} {path : List Bool} {value : UInt8}
    (h : LeafAt t (b :: path) value) (n : ℕ) (hahead : c.Ahead (b :: path)) :
    decodeArrayFrom root (path.length + 1 + n) t c =
      (decodeArrayFrom root n root (c.advance (path.length + 1))).map fun p =>
        (value :: p.1, p.2) := by
  induction path generalizing t b c with
  | nil =>
    obtain ⟨left, right, rfl, hchild⟩ := h.child
    generalize hnext : (if b then right else left) = next at hchild
    cases hchild
    rw [List.length_nil, Nat.zero_add, Nat.add_comm 1 n]
    exact decodeArrayFrom_leaf hahead hnext
  | cons b' path ih =>
    obtain ⟨left, right, rfl, hchild⟩ := h.child
    obtain ⟨left', right', hnext, -⟩ := hchild.child
    rw [hnext] at hchild
    have hstep := @decodeArrayFrom_node root c b (b' :: path) left right (path.length + 1 + n)
      left' right' hahead hnext
    have hrest := ih hchild hahead.tail
    rw [show (b' :: path).length + 1 + n = path.length + 1 + n + 1 by rw [List.length_cons]; omega,
      hstep]
    refine hrest.trans ?_
    rw [Cursor.advance_advance, List.length_cons, Nat.add_comm 1]

theorem decodeArrayFrom_padding {t : HuffmanEncodingTreeNode} {pad more : List Bool} {value : UInt8}
    (h : LeafAt t (pad ++ more) value) (hmore : more ≠ []) (hahead : c.Ahead pad) :
    decodeArrayFrom root pad.length t c = some ([], c.advance pad.length) := by
  induction pad generalizing t c with
  | nil => rfl
  | cons b pad ih =>
    have hstart : LeafAt t (b :: (pad ++ more)) value := h
    obtain ⟨left, right, rfl, hchild⟩ := hstart.child
    have hne : pad ++ more ≠ [] := List.append_ne_nil_of_right_ne_nil pad hmore
    obtain ⟨b', path, hpath⟩ := List.exists_cons_of_ne_nil hne
    have hdown := hchild
    rw [hpath] at hdown
    obtain ⟨left', right', hnext, -⟩ := hdown.child
    rw [hnext] at hchild
    have hrest := ih hchild hahead.tail
    rw [List.length_cons]
    refine (decodeArrayFrom_node hahead hnext).trans (hrest.trans ?_)
    rw [Cursor.advance_advance, Nat.add_comm 1]

theorem Complete.decodeArrayFrom_eq (h : Complete root) (values : List UInt8)
    {pad more : List Bool} {value : UInt8} (hpad : LeafAt root (pad ++ more) value)
    (hmore : more ≠ []) (hahead : c.Ahead (values.flatMap (encoding root) ++ pad)) :
    decodeArrayFrom root (values.flatMap (encoding root) ++ pad).length root c =
      some (values, c.advance (values.flatMap (encoding root) ++ pad).length) := by
  induction values generalizing c with
  | nil => exact decodeArrayFrom_padding hpad hmore hahead
  | cons first values ih =>
    obtain ⟨b, path, hpath⟩ := List.exists_cons_of_ne_nil (h.encoding_ne_nil first)
    have hleaf := h.leafAt first
    rw [hpath] at hleaf
    rw [List.flatMap_cons, List.append_assoc, hpath] at hahead ⊢
    have hstep := @decodeArrayFrom_leafAt root c b root path first hleaf
      (values.flatMap (encoding root) ++ pad).length hahead.left
    rw [List.length_append]
    refine hstep.trans ?_
    have hrest := ih hahead.right
    rw [List.length_cons] at hrest
    rw [hrest, Option.map_some, Cursor.advance_advance, List.length_cons]

end Decoding

/-! ### What is encoded -/

theorem Complete.writeEncodings_eq (h : Complete root) {input : List UInt8} {sizeInBytes : ℕ}
    (hsize : sizeInBytes ≤ input.length) (output : List Bool) :
    writeEncodings root input sizeInBytes output =
      some (output ++ (input.take sizeInBytes).flatMap (encoding root)) := by
  induction sizeInBytes generalizing input output with
  | zero => rw [writeEncodings, List.take_zero, List.flatMap_nil, List.append_nil]
  | succ sizeInBytes ih =>
    cases input with
    | nil => exact absurd hsize (Nat.not_succ_le_zero _)
    | cons value input =>
      rw [writeEncodings, h.bitLength_eq, List.take_length, ih (Nat.le_of_succ_le_succ hsize),
        List.take_succ_cons, List.flatMap_cons, List.append_assoc]

theorem Complete.encodeArray_eq (h : Complete root) {input : List UInt8} {sizeInBytes : ℕ}
    (hsize : sizeInBytes ≤ input.length) (hcounter : sizeInBytes < 2 ^ 32) :
    ∃ pad more value,
      encodeArray root input sizeInBytes =
        some ((input.take sizeInBytes).flatMap (encoding root) ++ pad) ∧
      ((input.take sizeInBytes).flatMap (encoding root) ++ pad).length % 8 = 0 ∧
      pad.length < 8 ∧ LeafAt root (pad ++ more) value ∧ more ≠ [] := by
  obtain ⟨pad, more, value, hpad, haligned, hshort, hleaf, hmore⟩ :=
    h.padToByte_eq ((input.take sizeInBytes).flatMap (encoding root))
  refine ⟨pad, more, value, ?_, haligned, hshort, hleaf, hmore⟩
  rw [encodeArray, if_pos hcounter, h.writeEncodings_eq hsize, List.nil_append, Option.map_some, hpad]

end HuffmanEncodingTree

end SLikeNet
