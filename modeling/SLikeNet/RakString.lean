import SLikeNet.Library.GuardedRun
import Mathlib.Data.List.Basic
import Mathlib.Logic.Function.Basic

/-! `RakString`: strings that share blocks of text, which are copied before they are written. -/

namespace SLikeNet

/-- A block; `text` has the bytes of `c_str` in front of its NUL. -/
structure SharedString where
  refCount : ℕ
  text : List UInt8
deriving DecidableEq, Inhabited

structure RakStrings where
  /-- The block of each variable in the order of their construction, `none` for `emptyString`. A
  variable that was destroyed has none. -/
  sharedString : List (Option ℕ)
  block : ℕ → SharedString
  freeList : List ℕ
  /-- The first block that was never allocated. -/
  nextBlock : ℕ
  /-- What `emptyString.c_str` holds. -/
  emptyString : List UInt8

/-- The bytes in front of the first NUL. -/
def upToNul (bytes : List UInt8) : List UInt8 := bytes.takeWhile fun value => value ≠ 0

namespace RakStrings

def start : RakStrings := ⟨[], fun _ => ⟨0, []⟩, [], 0, []⟩

variable (s : RakStrings)

def blockOf (v : ℕ) : Option ℕ := (s.sharedString[v]?).join

/-- The value of a variable. -/
def text (v : ℕ) : List UInt8 :=
  match s.blockOf v with
  | none => s.emptyString
  | some b => (s.block b).text

def isEmpty (v : ℕ) : Bool := (s.blockOf v).isNone

def setShared (v : ℕ) (b : Option ℕ) : RakStrings :=
  { s with sharedString := s.sharedString.set v b }

def setBlock (b : ℕ) (value : SharedString) : RakStrings :=
  { s with block := Function.update s.block b value }

/-- A write to `c_str`, wherever it points to. -/
def writeText (v : ℕ) (text : List UInt8) : RakStrings :=
  match s.blockOf v with
  | none => { s with emptyString := text }
  | some b => s.setBlock b { s.block b with text := text }

/-! ### Blocks -/

/-- `refCount` has 32 bits. -/
def decrement (refCount : ℕ) : ℕ := (refCount + 4294967295) % 4294967296

/-- 128 blocks are allocated where none is free. -/
def refill : RakStrings :=
  if s.freeList = [] then
    { s with freeList := List.range' s.nextBlock 128, nextBlock := s.nextBlock + 128 }
  else s

/-- `Allocate`, and the copy of the text into the new block. -/
def allocate (v : ℕ) (text : List UInt8) : RakStrings :=
  match s.refill.freeList.getLast? with
  | none => s
  | some b =>
    { s.refill.setBlock b ⟨1, text⟩ with
      sharedString := s.sharedString.set v (some b)
      freeList := s.refill.freeList.dropLast }

/-- `Assign` of a text, which does not let go of the block that the variable has. -/
def assignText (v : ℕ) (text : List UInt8) : RakStrings :=
  if text = [] then s.setShared v none else s.allocate v text

def assign (v : ℕ) (str : List UInt8) : RakStrings := s.assignText v (upToNul str)

def free (v : ℕ) : RakStrings :=
  match s.blockOf v with
  | none => s
  | some b =>
    { s with
      sharedString := s.sharedString.set v none
      block := Function.update s.block b { s.block b with
        refCount := decrement (s.block b).refCount }
      freeList := if decrement (s.block b).refCount = 0 then s.freeList ++ [b] else s.freeList }

def clone (v : ℕ) : RakStrings :=
  match s.blockOf v with
  | none => s
  | some b =>
    if (s.block b).refCount = 1 then s
    else
      (s.setBlock b { s.block b with refCount := decrement (s.block b).refCount }).assignText v
        (s.block b).text

/-! ### Construction, copies and assignments -/

def construct : RakStrings := { s with sharedString := s.sharedString ++ [none] }

/-- A variable that goes out of scope is the last one that was constructed. -/
def destroyLast : RakStrings :=
  { s.free (s.sharedString.length - 1) with
    sharedString := (s.free (s.sharedString.length - 1)).sharedString.dropLast }

/-- A variable without a block takes the one of another variable. -/
def share (v rhs : ℕ) : RakStrings :=
  match s.blockOf rhs with
  | none => s
  | some b =>
    if (s.block b).refCount = 0 then s.setShared v none
    else
      (s.setBlock b { s.block b with refCount := ((s.block b).refCount + 1) % 4294967296 }).setShared
        v (some b)

/-- `RakString(const RakString&)` -/
def copy (rhs : ℕ) : RakStrings := s.construct.share s.sharedString.length rhs

/-- `operator=` -/
def assignCopy (v rhs : ℕ) : RakStrings := (s.free v).share v rhs

/-- `operator=` of a C string. -/
def assignString (v : ℕ) (str : List UInt8) : RakStrings := (s.free v).assign v str

/-- `Assign(str, pos, n)`; what it returns is a copy that goes out of scope. -/
def assignAt (v : ℕ) (str : List UInt8) (pos n : ℕ) : RakStrings :=
  let s' := s.clone v
  let s' :=
    if upToNul str = [] ∨ (upToNul str).length ≤ pos then s'.setShared v none
    else s'.allocate v (((upToNul str).drop pos).take n)
  (s'.copy v).destroyLast

/-! ### Appending -/

/-- `operator+=` -/
def append (v rhs : ℕ) : RakStrings :=
  if s.isEmpty rhs then s
  else if s.isEmpty v then s.assignCopy v rhs
  else
    let s' := s.clone v
    s'.writeText v (s'.text v ++ s'.text rhs)

/-- `operator+=` of a C string. -/
def appendString (v : ℕ) (str : List UInt8) : RakStrings :=
  if upToNul str = [] then s
  else if s.isEmpty v then s.assign v str
  else
    let s' := s.clone v
    s'.writeText v (s'.text v ++ upToNul str)

def appendBytes (v : ℕ) (bytes : List UInt8) : RakStrings :=
  if s.isEmpty v then s.allocate v (upToNul bytes)
  else
    let s' := s.clone v
    s'.writeText v (s'.text v ++ upToNul bytes)

/-! ### Changes of the text -/

/-- The bytes where the one at `index` is written over. -/
def written (index : ℕ) (c : UInt8) (text : List UInt8) : List UInt8 :=
  if c = 0 then text.take index else text.set index c

def setChar (v index : ℕ) (c : UInt8) : RakStrings :=
  let s' := s.clone v
  s'.writeText v (written index c (s'.text v))

/-- `SubStr`, as a new variable. -/
def subStr (v index count : ℕ) : RakStrings :=
  if (s.text v).length ≤ index ∨ count = 0 then s.construct
  else s.construct.allocate s.sharedString.length (((s.text v).drop index).take count)

/-- `*this = SubStr(index, count)` -/
def assignSubStr (v index count : ℕ) : RakStrings :=
  ((s.subStr v index count).assignCopy v s.sharedString.length).destroyLast

/-- `SetChar` of a string, which is passed as a copy. -/
def setString (v index rhs : ℕ) : RakStrings :=
  let n := s.sharedString.length
  let s' := (((s.copy rhs).clone v).subStr v 0 index).subStr v (index + 1) 4294967295
  ((((s'.assignCopy v (n + 1)).append v n).append v (n + 2)).destroyLast.destroyLast).destroyLast

def truncate (v length : ℕ) : RakStrings :=
  if length < (s.text v).length then s.setChar v length 0 else s

/-- How far a character of UTF-8 is from the next one. -/
def utf8Step (c : UInt8) : ℕ :=
  if c ≠ 0 ∧ c < 128 then 1
  else if c &&& 0xF0 = 0xE0 then 3
  else if c &&& 0xF0 = 0xF0 then 4
  else 2

/-- The place where the loop of `TruncateUTF8` writes a NUL, if it comes to one. -/
def truncateIndex (text : List UInt8) (length : ℕ) : ℕ → ℕ → ℕ → Option ℕ
  | 0, _, _ => none
  | fuel + 1, i, count =>
    match text[i]? with
    | none => none
    | some c =>
      if count = length then some i
      else truncateIndex text length fuel (i + utf8Step c) (count + 1)

/-- The loop does not step over the NUL. -/
def stepsInside (text : List UInt8) (length : ℕ) : ℕ → ℕ → ℕ → Bool
  | 0, _, _ => true
  | fuel + 1, i, count =>
    match text[i]? with
    | none => i = text.length
    | some c => count = length || stepsInside text length fuel (i + utf8Step c) (count + 1)

/-- There is no `Clone` in `TruncateUTF8`. -/
def truncateUTF8 (v length : ℕ) : RakStrings :=
  match truncateIndex (s.text v) length (s.text v).length 0 0 with
  | none => s
  | some i => s.writeText v ((s.text v).take i)

def erase (v index count : ℕ) : RakStrings :=
  let s' := s.clone v
  s'.writeText v ((s'.text v).take index ++ (s'.text v).drop (index + count))

/-- The loop of `RemoveCharacter`, which writes in place and copies where it finds the character. -/
def removeLoop (v : ℕ) (c : UInt8) : ℕ → ℕ → ℕ → RakStrings → ℕ × RakStrings
  | 0, _, writeIndex, s => (writeIndex, s)
  | n + 1, readIndex, writeIndex, s =>
    if (s.text v).getD readIndex 0 ≠ c then
      removeLoop v c n (readIndex + 1) (writeIndex + 1)
        (s.writeText v ((s.text v).set writeIndex ((s.text v).getD readIndex 0)))
    else removeLoop v c n (readIndex + 1) writeIndex (s.clone v)

def removeCharacter (v : ℕ) (c : UInt8) : RakStrings :=
  if c = 0 then s
  else
    let r := removeLoop v c (s.text v).length 0 0 s
    let s' := r.2.writeText v ((r.2.text v).take r.1)
    if r.1 = 0 then s'.free v else s'

/-- The first place behind the first byte that has the character. -/
def firstPlace (c : UInt8) (text : List UInt8) : Option ℕ :=
  (text.drop 1).findIdx? (fun value => value = c) |>.map fun i => i + 1

/-- The loop goes on behind the NUL that it has written, which changes nothing in front of it. -/
def terminateAtFirstCharacter (v : ℕ) (c : UInt8) : RakStrings :=
  match firstPlace c (s.text v) with
  | none => s
  | some i =>
    let s' := s.clone v
    s'.writeText v ((s'.text v).take i)

/-- The last place that has the character. -/
def lastPlace (c : UInt8) (text : List UInt8) : Option ℕ :=
  (text.reverse.findIdx? fun value => value = c).map fun i => text.length - 1 - i

def terminateAtLastCharacter (v : ℕ) (c : UInt8) : RakStrings :=
  match lastPlace c (s.text v) with
  | none => s
  | some i =>
    let s' := s.clone v
    s'.writeText v ((s'.text v).take i)

/-- What stands behind the character, if anything does. -/
def startAfter (v : ℕ) (place : Option ℕ) : RakStrings :=
  match place with
  | none => s
  | some i =>
    if i + 1 < (s.text v).length then s.assignSubStr v (i + 1) ((s.text v).length - (i + 1))
    else s

def startAfterFirstCharacter (v : ℕ) (c : UInt8) : RakStrings :=
  s.startAfter v ((s.text v).findIdx? fun value => value = c)

def startAfterLastCharacter (v : ℕ) (c : UInt8) : RakStrings :=
  s.startAfter v (lastPlace c (s.text v))

/-! ### Runs -/

inductive Operation
  | construct
  | constructString (str : List UInt8)
  | copy (rhs : ℕ)
  | assignCopy (v rhs : ℕ)
  | assignString (v : ℕ) (str : List UInt8)
  | append (v rhs : ℕ)
  | appendString (v : ℕ) (str : List UInt8)
  | setChar (v index : ℕ) (c : UInt8)
  | setString (v index rhs : ℕ)
  | truncate (v length : ℕ)
  | truncateUTF8 (v length : ℕ)
  | erase (v index count : ℕ)
  | removeCharacter (v : ℕ) (c : UInt8)
  | terminateAtFirstCharacter (v : ℕ) (c : UInt8)
  | terminateAtLastCharacter (v : ℕ) (c : UInt8)
  | startAfterFirstCharacter (v : ℕ) (c : UInt8)
  | startAfterLastCharacter (v : ℕ) (c : UInt8)
  | assignAt (v : ℕ) (str : List UInt8) (pos n : ℕ)
  | appendBytes (v : ℕ) (bytes : List UInt8)
  | clear (v : ℕ)
  | destruct (v : ℕ)

def perform (s : RakStrings) : Operation → RakStrings
  | .construct => s.construct
  | .constructString str => s.construct.assign s.sharedString.length str
  | .copy rhs => s.copy rhs
  | .assignCopy v rhs => s.assignCopy v rhs
  | .assignString v str => s.assignString v str
  | .append v rhs => s.append v rhs
  | .appendString v str => s.appendString v str
  | .setChar v index c => s.setChar v index c
  | .setString v index rhs => s.setString v index rhs
  | .truncate v length => s.truncate v length
  | .truncateUTF8 v length => s.truncateUTF8 v length
  | .erase v index count => s.erase v index count
  | .removeCharacter v c => s.removeCharacter v c
  | .terminateAtFirstCharacter v c => s.terminateAtFirstCharacter v c
  | .terminateAtLastCharacter v c => s.terminateAtLastCharacter v c
  | .startAfterFirstCharacter v c => s.startAfterFirstCharacter v c
  | .startAfterLastCharacter v c => s.startAfterLastCharacter v c
  | .assignAt v str pos n => s.assignAt v str pos n
  | .appendBytes v bytes => s.appendBytes v bytes
  | .clear v => s.free v
  | .destruct v => s.free v

/-- The variable that an operation is about; a new one is the next. -/
def target (s : RakStrings) : Operation → ℕ
  | .construct | .constructString _ | .copy _ => s.sharedString.length
  | .assignCopy v _ | .assignString v _ | .append v _ | .appendString v _ | .setChar v _ _
  | .setString v _ _ | .truncate v _ | .truncateUTF8 v _ | .erase v _ _ | .removeCharacter v _
  | .terminateAtFirstCharacter v _ | .terminateAtLastCharacter v _
  | .startAfterFirstCharacter v _ | .startAfterLastCharacter v _ | .assignAt v _ _ _
  | .appendBytes v _ | .clear v | .destruct v => v

/-- Arguments are in range, and only a string that is not empty has its content changed. -/
def Possible (s : RakStrings) : Operation → Prop
  | .construct | .constructString _ | .copy _ => True
  | .assignCopy v _ | .assignString v _ | .append v _ | .appendString v _ | .assignAt v _ _ _
  | .appendBytes v _ | .clear v | .destruct v => v < s.sharedString.length
  | .setChar v index _ | .setString v index _ => index < (s.text v).length
  | .truncate v _ | .removeCharacter v _ | .terminateAtFirstCharacter v _
  | .terminateAtLastCharacter v _ | .startAfterFirstCharacter v _
  | .startAfterLastCharacter v _ => s.text v ≠ []
  | .truncateUTF8 v length =>
    s.text v ≠ [] ∧ stepsInside (s.text v) length (s.text v).length 0 0 = true
  | .erase v index count => s.text v ≠ [] ∧ index + count ≤ (s.text v).length

/-- No other variable has the block of the variable. -/
def Sole (s : RakStrings) (v : ℕ) : Prop :=
  ∀ b, s.blockOf v = some b → s.sharedString.count (some b) = 1

/-- A string that is about to be written has no block of its own, or one that can be copied. -/
def Writable (s : RakStrings) (v : ℕ) : Prop := s.blockOf v = none ∨ s.text v ≠ [] ∨ s.Sole v

/-- What keeps the copies apart: `TruncateUTF8` does not cut a string that is shared, no string is
appended to itself, an empty text that is shared is not written, and `Assign(str, pos, n)` finds no
block. -/
def Handled (s : RakStrings) : Operation → Prop
  | .truncateUTF8 v length =>
    truncateIndex (s.text v) length (s.text v).length 0 0 = none ∨ s.Sole v
  | .append v rhs => s.blockOf rhs = none ∨ v ≠ rhs ∧ s.Writable v
  | .appendString v str => upToNul str = [] ∨ s.Writable v
  | .appendBytes v _ => s.Writable v
  | .setString v index rhs =>
    0 < index ∨ s.blockOf rhs = none ∨ s.text rhs ≠ [] ∨ index + 1 = (s.text v).length
  | .assignAt v _ _ _ => s.blockOf v = none
  | _ => True

def Allowed (s : RakStrings) (op : Operation) : Prop :=
  s.Possible op ∧ s.Handled op ∧ s.sharedString.length + 4 < 4294967296

def Reachable : RakStrings → Prop := GuardedRun.Reachable perform Allowed start

/-- The references of every block are counted, and exactly the blocks without any are free. -/
def Counted (s : RakStrings) : Prop :=
  ∀ b < s.nextBlock, (some b ∈ s.sharedString →
    (s.block b).refCount = s.sharedString.count (some b)) ∧
      (b ∈ s.freeList ↔ some b ∉ s.sharedString)

/-- Nothing but the target of the operation changes its value. -/
def Apart (s : RakStrings) (op : Operation) : Prop :=
  ∀ v < s.sharedString.length, v ≠ s.target op → (s.perform op).text v = s.text v

end RakStrings

end SLikeNet
