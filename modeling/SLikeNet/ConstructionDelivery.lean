import SLikeNet.ConstructionMessage

/-! What the callbacks of `OnConstruction` are given of a message of `SendConstruction`: the bits
that their counterparts wrote, whatever the callbacks before them have read. -/

namespace SLikeNet

open BitStream OffsetWriter

namespace ConstructionMessage

variable {State : Type} {message : List Bool} {offset : ℕ}

/-! ### Where things are in the message -/

/-- The message has these bits at the offset. -/
def Has (message : List Bool) (offset : ℕ) (bs : List Bool) : Prop := bs <+: message.drop offset

theorem Has.left {bs bs' : List Bool} (h : Has message offset (bs ++ bs')) :
    Has message offset bs := (List.prefix_append bs bs').trans h

theorem Has.right {bs bs' : List Bool} (h : Has message offset (bs ++ bs')) :
    Has message (offset + bs.length) bs' := by
  obtain ⟨rest, hrest⟩ := h
  refine ⟨rest, ?_⟩
  rw [← List.drop_drop, ← hrest, List.append_assoc, List.drop_left]

theorem Has.length_le {bs : List Bool} (h : Has message offset bs) (hne : bs ≠ []) :
    offset + bs.length ≤ message.length := by
  have hle := List.IsPrefix.length_le h
  have hpos := List.length_pos_iff.mpr hne
  rw [List.length_drop] at hle
  omega

theorem Has.andThen {first second : OffsetWriter}
    (h : Has message offset (first.andThen second offset)) :
    Has message offset (first offset) ∧ Has message (offset + (first offset).length)
      (second (offset + (first offset).length)) := ⟨h.left, h.right⟩

theorem read_of_has {width n : ℕ} (h : Has message offset (toBits width n)) (hwidth : 0 < width)
    (hn : ofBits (toBits width n) = n) : read width message offset = some (n, offset + width) := by
  have hne : toBits width n ≠ [] := List.ne_nil_of_length_pos (by rwa [length_toBits])
  have hle := h.length_le hne
  rw [length_toBits] at hle
  have htake : (message.drop offset).take width = toBits width n := by
    have := List.prefix_iff_eq_take.mp h
    rw [length_toBits] at this
    exact this.symm
  rw [read, if_pos hle, htake, hn]

theorem ofBits_uint64 (n : UInt64) : ofBits (toBits 64 n.toNat) = n.toNat :=
  ofBits_toBits_of_lt n.toNat_lt

theorem read_bit {b : Bool} (h : Has message offset [b]) :
    read 1 message offset = some (if b then 1 else 0, offset + 1) := by
  cases b with
  | false => exact read_of_has (n := 0) h Nat.one_pos rfl
  | true => exact read_of_has (n := 1) h Nat.one_pos rfl

theorem Has.backPatched {body : OffsetWriter} (h : Has message offset (backPatched body offset))
    (hlength : message.length < 4294967296) :
    read 32 message offset =
        some (offset + (OffsetWriter.backPatched body offset).length, offset + 32) ∧
      Has message (offset + 32) (body (offset + 32)) := by
  have hlen : (OffsetWriter.backPatched body offset).length =
      32 + (body (offset + 32)).length := by
    rw [OffsetWriter.backPatched, List.length_append, length_toBits]
  have hne : OffsetWriter.backPatched body offset ≠ [] :=
    List.ne_nil_of_length_pos (by omega)
  have hle := h.length_le hne
  have hbody := h.right
  rw [length_toBits] at hbody
  refine ⟨?_, hbody⟩
  rw [hlen, ← Nat.add_assoc]
  exact read_of_has h.left (by omega) (ofBits_toBits_of_lt (by omega))

theorem add_length_align (offset : ℕ) :
    offset + (OffsetWriter.align offset).length = aligned offset := by
  rw [OffsetWriter.align, List.length_replicate, aligned]

theorem aligned_mod (offset : ℕ) : aligned offset % 8 = 0 := by
  unfold aligned padding
  omega

theorem aligned_of_mod (h : offset % 8 = 0) : aligned offset = offset := by
  rw [aligned, padding_of_aligned h, Nat.add_zero]

theorem add_length_andThen {first second : OffsetWriter} :
    offset + (first.andThen second offset).length =
      offset + (first offset).length + (second (offset + (first offset).length)).length := by
  rw [OffsetWriter.andThen, List.length_append, Nat.add_assoc]

theorem add_length_number {width n : ℕ} : offset + (number width n offset).length =
    offset + width := by
  rw [number, bits, length_toBits]

/-! ### The new objects -/

def contentStart (offset : ℕ) : ℕ := aligned (offset + 32 + 64 + 1)

/-- Where `WriteAllocationID` has begun to write. -/
def allocationStart (offset : ℕ) : ℕ := contentStart offset + 64 + 32

/-- Where `SerializeConstruction` or `SerializeConstructionExisting` has. -/
def constructionStart (o : NewObject) (offset : ℕ) : ℕ :=
  if o.actuallyCreateObject then aligned (allocationStart offset + o.allocationID.length)
  else contentStart offset

/-- What is made of an object by a receiver that is given what was written, and where. -/
def deliverObject (r : Receiver State) (message : List Bool) (o : NewObject) (offset : ℕ)
    (s : State) : (Bool × Option UInt64) × State :=
  if o.actuallyCreateObject then
    if r.getObjectFromID s o.networkId then
      ((true, none), r.onDownloadExisting o.networkId s)
    else
      let (tick, s) := createObject r message o.networkId o.creatingSystemGUID
        (allocationStart offset) (constructionStart o offset) s
      ((true, tick), s)
  else if r.getObjectFromID s o.networkId then
    let (_, _, s) := r.call .deserializeConstructionExisting o.networkId message
      (constructionStart o offset) s
    ((false, some o.networkId), s)
  else ((false, none), s)

theorem allocationStart_mod : allocationStart offset % 8 = 0 := by
  have hcontent := aligned_mod (offset + 32 + 64 + 1)
  unfold allocationStart contentStart
  omega

/-- The parts of an object, each where it was written. -/
structure ObjectParts (message : List Bool) (o : NewObject) (offset : ℕ) : Prop where
  streamEnd : read 32 message offset =
    some (offset + (writeObject o offset).length, offset + 32)
  networkId : read 64 message (offset + 32) = some (o.networkId.toNat, offset + 32 + 64)
  flag : read 1 message (offset + 32 + 64) =
    some (if o.actuallyCreateObject then 1 else 0, offset + 32 + 64 + 1)
  guid : o.actuallyCreateObject = true → read 64 message (contentStart offset) =
    some (o.creatingSystemGUID.toNat, contentStart offset + 64)
  allocationEnd : o.actuallyCreateObject = true → read 32 message (contentStart offset + 64) =
    some (constructionStart o offset, allocationStart offset)
  allocation : o.actuallyCreateObject = true →
    Has message (allocationStart offset) o.allocationID
  construction : Has message (constructionStart o offset) o.construction
  aligned : (offset + (writeObject o offset).length) % 8 = 0

theorem add_length_writeAllocation {o : NewObject} (h : offset % 8 = 0) :
    offset + (writeAllocation o offset).length =
      aligned (offset + 32 + o.allocationID.length) := by
  have halign : offset + 32 + (OffsetWriter.align (offset + 32)).length = offset + 32 := by
    rw [add_length_align, aligned_of_mod (by omega)]
  rw [writeAllocation, OffsetWriter.backPatched, List.length_append, length_toBits,
    ← Nat.add_assoc, add_length_andThen, halign, add_length_andThen, add_length_align, bits]

theorem add_length_writeObject {o : NewObject} : offset + (writeObject o offset).length =
    aligned (contentStart offset + (writeContent o (contentStart offset)).length) := by
  rw [writeObject, OffsetWriter.backPatched, List.length_append, length_toBits, ← Nat.add_assoc,
    add_length_andThen, add_length_number, add_length_andThen, bits, List.length_singleton,
    add_length_andThen, add_length_align, add_length_andThen, add_length_align, contentStart]

theorem objectParts {o : NewObject} (h : Has message offset (writeObject o offset))
    (hlength : message.length < 4294967296) : ObjectParts message o offset := by
  obtain ⟨hend, hbody⟩ := Has.backPatched h hlength
  obtain ⟨hid, hbody⟩ := hbody.andThen
  rw [add_length_number] at hbody
  obtain ⟨hflag, hbody⟩ := hbody.andThen
  obtain ⟨-, hbody⟩ := hbody.andThen
  rw [add_length_align] at hbody
  obtain ⟨hcontent, -⟩ := hbody.andThen
  change Has message (contentStart offset) (writeContent o (contentStart offset)) at hcontent
  have hmod : contentStart offset % 8 = 0 := aligned_mod _
  have hcreate : o.actuallyCreateObject = true →
      read 64 message (contentStart offset) =
          some (o.creatingSystemGUID.toNat, contentStart offset + 64) ∧
        read 32 message (contentStart offset + 64) =
          some (constructionStart o offset, allocationStart offset) ∧
        Has message (allocationStart offset) o.allocationID ∧
        Has message (constructionStart o offset) o.construction := by
    intro hflag
    rw [writeContent, if_pos hflag] at hcontent
    obtain ⟨hguid, hcontent⟩ := hcontent.andThen
    rw [add_length_number] at hcontent
    obtain ⟨halloc, hconstruction⟩ := hcontent.andThen
    rw [add_length_writeAllocation (by omega)] at hconstruction
    obtain ⟨hallocEnd, hallocation⟩ := Has.backPatched halloc hlength
    change read 32 message (contentStart offset + 64) =
      some (contentStart offset + 64 + (writeAllocation o (contentStart offset + 64)).length, _)
      at hallocEnd
    rw [add_length_writeAllocation (by omega)] at hallocEnd
    obtain ⟨-, hallocation⟩ := hallocation.andThen
    rw [add_length_align, aligned_of_mod (by omega)] at hallocation
    have hstart : constructionStart o offset =
        aligned (contentStart offset + 64 + 32 + o.allocationID.length) := by
      rw [constructionStart, if_pos hflag, allocationStart]
    refine ⟨read_of_has hguid (by omega) (ofBits_uint64 _), ?_, hallocation.andThen.1, ?_⟩
    · rw [hstart]
      exact hallocEnd
    · rw [hstart]
      exact hconstruction
  refine ⟨hend, read_of_has hid (by omega) (ofBits_uint64 _), read_bit hflag,
    fun hflag => (hcreate hflag).1, fun hflag => (hcreate hflag).2.1,
    fun hflag => (hcreate hflag).2.2.1, ?_, ?_⟩
  · by_cases hflag : o.actuallyCreateObject = true
    · exact (hcreate hflag).2.2.2
    · rw [constructionStart, if_neg hflag]
      rw [writeContent, if_neg hflag] at hcontent
      exact hcontent
  · rw [add_length_writeObject]
    exact aligned_mod _

theorem onObject_spec {r : Receiver State} {o : NewObject} {s : State}
    (h : ObjectParts message o offset) : onObject r message offset s =
      some ((deliverObject r message o offset s).1, offset + (writeObject o offset).length,
        (deliverObject r message o offset s).2) := by
  have hend : aligned (offset + (writeObject o offset).length) =
      offset + (writeObject o offset).length := aligned_of_mod h.aligned
  have halloc : aligned (allocationStart offset) = allocationStart offset :=
    aligned_of_mod allocationStart_mod
  have hstart : ConstructionMessage.aligned (offset + 32 + 64 + 1) = contentStart offset := rfl
  unfold onObject deliverObject
  by_cases hflag : o.actuallyCreateObject = true
  · by_cases hknown : r.getObjectFromID s o.networkId = true
    · simp [h.streamEnd, h.networkId, h.flag, hflag, hstart, h.guid hflag,
        h.allocationEnd hflag, hknown]
    · simp [h.streamEnd, h.networkId, h.flag, hflag, hstart, h.guid hflag,
        h.allocationEnd hflag, hknown, hend, halloc]
  · by_cases hknown : r.getObjectFromID s o.networkId = true
    · simp [h.streamEnd, h.networkId, h.flag, hflag, hstart, hknown, hend,
        constructionStart]
    · simp [h.streamEnd, h.networkId, h.flag, hflag, hknown, hend]

/-- What is made of the new objects, each where it was written. -/
def deliverObjects (r : Receiver State) (message : List Bool) : List NewObject → ℕ → State →
    List (Bool × Option UInt64) × State
  | [], _, s => ([], s)
  | o :: rest, offset, s =>
    let first := deliverObject r message o offset s
    let others := deliverObjects r message rest (offset + (writeObject o offset).length) first.2
    (first.1 :: others.1, others.2)

/-- The callbacks for the new objects start at what their counterparts wrote. -/
def ObjectsAt (message : List Bool) : List NewObject → ℕ → Prop
  | [], _ => True
  | o :: rest, offset => (o.actuallyCreateObject = true →
      Has message (allocationStart offset) o.allocationID ∧ allocationStart offset % 8 = 0) ∧
    Has message (constructionStart o offset) o.construction ∧
    constructionStart o offset % 8 = 0 ∧
    ObjectsAt message rest (offset + (writeObject o offset).length)

theorem constructionStart_mod (o : NewObject) : constructionStart o offset % 8 = 0 := by
  unfold constructionStart
  split
  · exact aligned_mod _
  · exact aligned_mod _

theorem onObjects_spec {r : Receiver State} {newObjects : List NewObject} {s : State}
    (h : Has message offset (all writeObject newObjects offset))
    (hlength : message.length < 4294967296) :
    onObjects r message newObjects.length offset s =
        some ((deliverObjects r message newObjects offset s).1,
          offset + (all writeObject newObjects offset).length,
          (deliverObjects r message newObjects offset s).2) ∧
      ObjectsAt message newObjects offset := by
  induction newObjects generalizing offset s with
  | nil => exact ⟨rfl, trivial⟩
  | cons o rest ih =>
    obtain ⟨hfirst, hrest⟩ := Has.andThen h
    have hparts := objectParts hfirst hlength
    obtain ⟨hothers, hat⟩ := ih (s := (deliverObject r message o offset s).2) hrest
    refine ⟨?_, fun hflag => ⟨hparts.allocation hflag, allocationStart_mod⟩, hparts.construction,
      constructionStart_mod o, hat⟩
    have hlen : offset + (all writeObject (o :: rest) offset).length =
        offset + (writeObject o offset).length +
          (all writeObject rest (offset + (writeObject o offset).length)).length :=
      add_length_andThen
    rw [hlen, List.length_cons, onObjects, onObject_spec hparts]
    simp only [Option.bind_eq_bind, Option.bind_some, hothers]
    rfl

/-! ### After the construction -/

/-- Where the bits of `PostSerializeConstruction` have been written. -/
def postStart (offset : ℕ) : ℕ := aligned (offset + 1) + 32 + 64

def deliverPost (r : Receiver State) (message : List Bool) (o : NewObject)
    (entry : Bool × Option UInt64) (offset : ℕ) (s : State) : State :=
  if o.postConstruction = [] then postConstruction r entry [] 0 s
  else postConstruction r entry message (postStart offset) s

def deliverPosts (r : Receiver State) (message : List Bool) : List NewObject →
    List (Bool × Option UInt64) → ℕ → State → State
  | o :: rest, entry :: entries, offset, s =>
    deliverPosts r message rest entries (offset + (writePost o offset).length)
      (deliverPost r message o entry offset s)
  | _, _, _, s => s

def PostsAt (message : List Bool) : List NewObject → ℕ → Prop
  | [], _ => True
  | o :: rest, offset => (o.postConstruction ≠ [] →
      Has message (postStart offset) o.postConstruction ∧ postStart offset % 8 = 0) ∧
    PostsAt message rest (offset + (writePost o offset).length)

theorem postStart_mod : postStart offset % 8 = 0 := by
  have := aligned_mod (offset + 1)
  unfold postStart
  omega

theorem onPost_spec {r : Receiver State} {o : NewObject} {entry : Bool × Option UInt64} {s : State}
    (h : Has message offset (writePost o offset)) (hlength : message.length < 4294967296) :
    onPost r message entry offset s = some (offset + (writePost o offset).length,
        deliverPost r message o entry offset s) ∧
      (o.postConstruction ≠ [] →
        Has message (postStart offset) o.postConstruction ∧ postStart offset % 8 = 0) := by
  by_cases hpost : o.postConstruction = []
  · rw [writePost, if_pos hpost] at h
    refine ⟨?_, fun hne => absurd hpost hne⟩
    have hlen : (writePost o offset).length = 1 := by
      rw [writePost, if_pos hpost]
      rfl
    rw [onPost, read_bit h, hlen, deliverPost, if_pos hpost]
    rfl
  · rw [writePost, if_neg hpost] at h
    obtain ⟨hbit, hrest⟩ := Has.andThen h
    have hone : (bits [true] offset).length = 1 := rfl
    rw [hone] at hrest
    obtain ⟨-, hrest⟩ := Has.andThen hrest
    rw [add_length_align] at hrest
    obtain ⟨hend, hbody⟩ := Has.backPatched hrest hlength
    obtain ⟨hid, hbody⟩ := hbody.andThen
    rw [add_length_number] at hbody
    obtain ⟨-, hbody⟩ := hbody.andThen
    rw [add_length_align] at hbody
    have hstart : aligned (aligned (offset + 1) + 32 + 64) = postStart offset :=
      aligned_of_mod postStart_mod
    change Has message (aligned (aligned (offset + 1) + 32 + 64)) _ at hbody
    rw [hstart] at hbody
    have hlen : offset + (writePost o offset).length = aligned (offset + 1) +
        (OffsetWriter.backPatched ((number 64 o.networkId.toNat).andThen
          (OffsetWriter.align.andThen ((bits o.postConstruction).andThen OffsetWriter.align)))
            (aligned (offset + 1))).length := by
      rw [writePost, if_neg hpost, add_length_andThen, add_length_andThen, add_length_align]
      rfl
    have hwritten : Has message (postStart offset) (o.postConstruction ++ _) := hbody
    refine ⟨?_, fun _ => ⟨hwritten.left, postStart_mod⟩⟩
    have hnetworkId := read_of_has hid (by omega) (ofBits_uint64 _)
    rw [onPost, read_bit hbit, hlen, deliverPost, if_neg hpost]
    simp [hend, hnetworkId, hstart]

theorem onPosts_spec {r : Receiver State} {newObjects : List NewObject}
    {entries : List (Bool × Option UInt64)} {s : State}
    (hentries : entries.length = newObjects.length)
    (h : Has message offset (all writePost newObjects offset))
    (hlength : message.length < 4294967296) :
    onPosts r message entries offset s =
        some (offset + (all writePost newObjects offset).length,
          deliverPosts r message newObjects entries offset s) ∧
      PostsAt message newObjects offset := by
  induction newObjects generalizing offset s entries with
  | nil =>
    obtain rfl := List.length_eq_zero_iff.mp hentries
    exact ⟨rfl, trivial⟩
  | cons o rest ih =>
    cases entries with
    | nil => cases hentries
    | cons entry entries =>
      obtain ⟨hfirst, hrest⟩ := Has.andThen h
      obtain ⟨hone, hat⟩ := @onPost_spec State message offset r o entry s hfirst hlength
      obtain ⟨hothers, hats⟩ := ih (s := deliverPost r message o entry offset s)
        (Nat.succ.inj hentries) hrest
      have hlen : offset + (all writePost (o :: rest) offset).length =
          offset + (writePost o offset).length +
            (all writePost rest (offset + (writePost o offset).length)).length :=
        add_length_andThen
      refine ⟨?_, hat, hats⟩
      rw [hlen, onPosts, hone]
      exact hothers

/-! ### The destructions -/

/-- Where `SerializeDestruction` has begun to write. -/
def destructionStart (offset : ℕ) : ℕ := offset + 64 + 32 + 64

def deliverDeleted (r : Receiver State) (message : List Bool) (o : DeletedObject) (offset : ℕ)
    (s : State) : State :=
  if r.getObjectFromID s o.networkId then
    let (result, _, s) := r.call .deserializeDestruction o.networkId message
      (destructionStart offset) s
    r.destroy o.networkId o.deletingSystemGUID result s
  else s

def deliverDestructions (r : Receiver State) (message : List Bool) : List DeletedObject → ℕ →
    State → State
  | [], _, s => s
  | o :: rest, offset, s =>
    deliverDestructions r message rest (offset + (writeDeleted o offset).length)
      (deliverDeleted r message o offset s)

def DestructionsAt (message : List Bool) : List DeletedObject → ℕ → Prop
  | [], _ => True
  | o :: rest, offset => Has message (destructionStart offset) o.destruction ∧
    DestructionsAt message rest (offset + (writeDeleted o offset).length)

/-- Every `DeserializeDestruction` but the last leaves the stream in the byte in which
`SerializeDestruction` did. -/
def ReadsDestructions (r : Receiver State) (message : List Bool) : List DeletedObject → ℕ → State →
    Prop
  | [], _, _ => True
  | o :: rest, offset, s => (rest ≠ [] → r.getObjectFromID s o.networkId = true →
      aligned (r.call .deserializeDestruction o.networkId message (destructionStart offset) s).2.1 =
        aligned (destructionStart offset + o.destruction.length)) ∧
    ReadsDestructions r message rest (offset + (writeDeleted o offset).length)
      (deliverDeleted r message o offset s)

theorem add_length_writeDeleted {o : DeletedObject} : offset + (writeDeleted o offset).length =
    aligned (destructionStart offset + o.destruction.length) := by
  rw [writeDeleted, add_length_andThen, add_length_number, OffsetWriter.backPatched,
    List.length_append, length_toBits, ← Nat.add_assoc, add_length_andThen, add_length_number,
    add_length_andThen, add_length_align]
  rfl

theorem deletedParts {o : DeletedObject} (h : Has message offset (writeDeleted o offset))
    (hlength : message.length < 4294967296) :
    read 64 message offset = some (o.networkId.toNat, offset + 64) ∧
      read 32 message (offset + 64) = some (offset + (writeDeleted o offset).length,
        offset + 64 + 32) ∧
      read 64 message (offset + 64 + 32) = some (o.deletingSystemGUID.toNat,
        destructionStart offset) ∧
      Has message (destructionStart offset) o.destruction := by
  obtain ⟨hid, hrest⟩ := Has.andThen h
  rw [add_length_number] at hrest
  obtain ⟨hend, hbody⟩ := Has.backPatched hrest hlength
  obtain ⟨hguid, hbody⟩ := hbody.andThen
  rw [add_length_number] at hbody
  have hlen : offset + (writeDeleted o offset).length = offset + 64 +
      (OffsetWriter.backPatched ((number 64 o.deletingSystemGUID.toNat).andThen
        ((bits o.destruction).andThen OffsetWriter.align)) (offset + 64)).length := by
    rw [writeDeleted, add_length_andThen, add_length_number]
  rw [hlen]
  exact ⟨read_of_has hid (by omega) (ofBits_uint64 _), hend,
    read_of_has hguid (by omega) (ofBits_uint64 _), hbody.andThen.1⟩

/-- One object of the destruction list: the reader is behind it, unless it is known and its callback
is somewhere else. -/
theorem onDeleted_spec {r : Receiver State} {o : DeletedObject} {s : State}
    (h : Has message offset (writeDeleted o offset)) (hlength : message.length < 4294967296) :
    onDeleted r message offset s = some (if r.getObjectFromID s o.networkId then
        aligned (r.call .deserializeDestruction o.networkId message (destructionStart offset) s).2.1
      else offset + (writeDeleted o offset).length, deliverDeleted r message o offset s) := by
  obtain ⟨hid, hend, hguid, -⟩ := deletedParts h hlength
  rw [onDeleted, deliverDeleted]
  by_cases hknown : r.getObjectFromID s o.networkId = true
  · simp [hid, hend, hguid, hknown]
  · simp [hid, hend, hknown]

/-- The offsets at which the loop looks for the network ids. -/
def destructionsRead (r : Receiver State) (message : List Bool) : ℕ → ℕ → State → List ℕ
  | 0, _, _ => []
  | count + 1, offset, s => offset :: match onDeleted r message offset s with
    | none => []
    | some (offset, s) => destructionsRead r message count offset s

/-- The offsets at which they were written. -/
def destructionsWritten : List DeletedObject → ℕ → List ℕ
  | [], _ => []
  | o :: rest, offset =>
    offset :: destructionsWritten rest (offset + (writeDeleted o offset).length)

theorem ReadsDestructions.next {r : Receiver State} {o o' : DeletedObject}
    {rest : List DeletedObject} {s : State}
    (h : ReadsDestructions r message (o :: o' :: rest) offset s) :
    (if r.getObjectFromID s o.networkId then
        aligned (r.call .deserializeDestruction o.networkId message (destructionStart offset) s).2.1
      else offset + (writeDeleted o offset).length) = offset + (writeDeleted o offset).length := by
  split
  · rename_i hknown
    rw [h.1 (List.cons_ne_nil _ _) hknown, add_length_writeDeleted]
  · rfl

theorem onDestructions_spec {r : Receiver State} {deletedObjects : List DeletedObject} {s : State}
    (h : Has message offset (all writeDeleted deletedObjects offset))
    (hlength : message.length < 4294967296)
    (hreads : ReadsDestructions r message deletedObjects offset s) :
    onDestructions r message deletedObjects.length offset s =
      some (deliverDestructions r message deletedObjects offset s) := by
  induction deletedObjects generalizing offset s with
  | nil => rfl
  | cons o rest ih =>
    obtain ⟨hfirst, hrest⟩ := Has.andThen h
    have hone := onDeleted_spec (r := r) (s := s) hfirst hlength
    cases rest with
    | nil => simp [onDestructions, deliverDestructions, hone]
    | cons o' rest =>
      rw [hreads.next] at hone
      rw [List.length_cons, onDestructions, hone]
      exact ih hrest hreads.2

theorem destructionsAt {deletedObjects : List DeletedObject}
    (h : Has message offset (all writeDeleted deletedObjects offset))
    (hlength : message.length < 4294967296) : DestructionsAt message deletedObjects offset := by
  induction deletedObjects generalizing offset with
  | nil => trivial
  | cons o rest ih =>
    obtain ⟨hfirst, hrest⟩ := Has.andThen h
    exact ⟨(deletedParts hfirst hlength).2.2.2, ih hrest⟩

/-- The network ids are looked for where they were written if and only if every callback but the
last has read to the end. -/
theorem destructionsRead_eq_iff {r : Receiver State} {deletedObjects : List DeletedObject}
    {s : State} (h : Has message offset (all writeDeleted deletedObjects offset))
    (hlength : message.length < 4294967296) :
    destructionsRead r message deletedObjects.length offset s =
        destructionsWritten deletedObjects offset ↔
      ReadsDestructions r message deletedObjects offset s := by
  induction deletedObjects generalizing offset s with
  | nil => exact ⟨fun _ => trivial, fun _ => rfl⟩
  | cons o rest ih =>
    obtain ⟨hfirst, hrest⟩ := Has.andThen h
    have hone := onDeleted_spec (r := r) (s := s) hfirst hlength
    cases rest with
    | nil =>
      refine ⟨fun _ => ⟨fun hne => absurd rfl hne, trivial⟩, fun _ => ?_⟩
      simp [destructionsRead, destructionsWritten, hone]
    | cons o' rest =>
      rw [List.length_cons, destructionsRead, destructionsWritten, hone]
      refine ⟨fun heq => ?_, fun hreads => ?_⟩
      · have heads := (List.cons.inj heq).2
        have hnext := (List.cons.inj heads).1
        dsimp only at heads
        rw [hnext] at heads
        refine ⟨fun _ hknown => ?_, (ih hrest).mp heads⟩
        rw [if_pos hknown] at hnext
        rw [hnext, add_length_writeDeleted]
      · dsimp only
        rw [hreads.next]
        exact congrArg (offset :: ·) ((ih hrest).mpr hreads.2)

/-! ### The whole message -/

def objectsStart (offset : ℕ) : ℕ := offset + 16

def postsStart (newObjects : List NewObject) (offset : ℕ) : ℕ :=
  objectsStart offset + (all writeObject newObjects (objectsStart offset)).length

def destructionsStart (newObjects : List NewObject) (offset : ℕ) : ℕ :=
  aligned (postsStart newObjects offset +
    (all writePost newObjects (postsStart newObjects offset)).length) + 16

/-- What a receiver makes of the message that is given what was written, and where. -/
def deliver (r : Receiver State) (message : List Bool) (newObjects : List NewObject)
    (deletedObjects : List DeletedObject) (offset : ℕ) (s : State) : State :=
  let objects := deliverObjects r message newObjects (objectsStart offset) s
  let s := deliverPosts r message newObjects objects.1 (postsStart newObjects offset) objects.2
  deliverDestructions r message deletedObjects (destructionsStart newObjects offset)
    (onDownloads r objects.1 s)

/-- The state before the destructions. -/
def constructed (r : Receiver State) (message : List Bool) (newObjects : List NewObject)
    (offset : ℕ) (s : State) : State :=
  deliver r message newObjects [] offset s

/-- The callbacks start at the bits that their counterparts wrote. -/
def CallbacksAt (message : List Bool) (newObjects : List NewObject)
    (deletedObjects : List DeletedObject) (offset : ℕ) : Prop :=
  ObjectsAt message newObjects (objectsStart offset) ∧
    PostsAt message newObjects (postsStart newObjects offset) ∧
    DestructionsAt message deletedObjects (destructionsStart newObjects offset)

theorem length_deliverObjects {r : Receiver State} {newObjects : List NewObject} {s : State} :
    (deliverObjects r message newObjects offset s).1.length = newObjects.length := by
  induction newObjects generalizing offset s with
  | nil => rfl
  | cons o rest ih => exact congrArg (· + 1) ih

/-- `OnConstruction` up to the destructions: their number, where they begin and the state. -/
def beforeDestructions (r : Receiver State) (message : List Bool) (offset : ℕ) (s : State) :
    Option (ℕ × ℕ × State) := do
  let (constructionObjectListSize, offset) ← read 16 message offset
  let (entries, offset, s) ← onObjects r message constructionObjectListSize offset s
  let (offset, s) ← onPosts r message entries offset s
  let s := onDownloads r entries s
  let (destructionObjectListSize, offset) ← read 16 message (aligned offset)
  pure (destructionObjectListSize, offset, s)

theorem onConstruction_eq {r : Receiver State} {s : State} :
    onConstruction r message offset s = (beforeDestructions r message offset s).bind
      fun before => onDestructions r message before.1 before.2.1 before.2.2 := by
  simp only [onConstruction, beforeDestructions, Option.bind_eq_bind, Option.bind_assoc,
    Option.pure_def, Option.bind_some]

/-- The offsets at which `OnConstruction` looks for the network ids of the destruction list. -/
def destructionOffsets (r : Receiver State) (message : List Bool) (offset : ℕ) (s : State) :
    Option (List ℕ) :=
  (beforeDestructions r message offset s).map
    fun before => destructionsRead r message before.1 before.2.1 before.2.2

/-- `OnConstruction` makes of the message what was written into it, with every callback at the bits
of its counterpart and every object of the destruction list read where it was written. -/
def Delivers (r : Receiver State) (message : List Bool) (newObjects : List NewObject)
    (deletedObjects : List DeletedObject) (offset : ℕ) (s : State) : Prop :=
  onConstruction r message offset s =
      some (deliver r message newObjects deletedObjects offset s) ∧
    CallbacksAt message newObjects deletedObjects offset ∧
    destructionOffsets r message offset s =
      some (destructionsWritten deletedObjects (destructionsStart newObjects offset))

/-- Everything before the destructions is read as it was written, whatever the callbacks read. -/
theorem beforeDestructions_spec {r : Receiver State} {newObjects : List NewObject}
    {deletedObjects : List DeletedObject} {s : State}
    (hmessage : Has message offset (sendConstruction newObjects deletedObjects offset))
    (hlength : message.length < 4294967296) (hnew : newObjects.length < 65536)
    (hdeleted : deletedObjects.length < 65536) :
    beforeDestructions r message offset s = some (deletedObjects.length,
        destructionsStart newObjects offset, constructed r message newObjects offset s) ∧
      ObjectsAt message newObjects (objectsStart offset) ∧
      PostsAt message newObjects (postsStart newObjects offset) ∧
      Has message (destructionsStart newObjects offset)
        (all writeDeleted deletedObjects (destructionsStart newObjects offset)) := by
  obtain ⟨hcount, hrest⟩ := Has.andThen hmessage
  rw [add_length_number] at hrest
  obtain ⟨hobjects, hrest⟩ := Has.andThen hrest
  obtain ⟨hposts, hrest⟩ := Has.andThen hrest
  obtain ⟨-, hrest⟩ := Has.andThen hrest
  rw [add_length_align] at hrest
  obtain ⟨hcount', hdestructions⟩ := Has.andThen hrest
  rw [add_length_number] at hdestructions
  rw [Nat.mod_eq_of_lt hnew] at hcount
  rw [Nat.mod_eq_of_lt hdeleted] at hcount'
  have hread := read_of_has hcount (by omega) (ofBits_toBits_of_lt (by omega))
  have hread' := read_of_has hcount' (by omega) (ofBits_toBits_of_lt (by omega))
  obtain ⟨hons, hat⟩ := onObjects_spec (r := r) (s := s) hobjects hlength
  obtain ⟨honp, hatp⟩ := onPosts_spec (r := r)
    (s := (deliverObjects r message newObjects (offset + 16) s).2)
    (@length_deliverObjects State message (offset + 16) r newObjects s) hposts hlength
  refine ⟨?_, hat, hatp, hdestructions⟩
  change read 16 message (aligned _) = _ at hread'
  change onObjects r message newObjects.length (offset + 16) s = _ at hons
  rw [beforeDestructions, hread]
  simp only [Option.bind_eq_bind, Option.bind_some, hons]
  rw [honp]
  simp only [Option.bind_some, hread']
  rfl

/-- The message is made what was written into it if and only if every `DeserializeDestruction` but
the last reads to the end. -/
theorem onConstruction_delivers_iff (r : Receiver State) (message : List Bool)
    (newObjects : List NewObject) (deletedObjects : List DeletedObject) (offset : ℕ) (s : State)
    (hmessage : Has message offset (sendConstruction newObjects deletedObjects offset))
    (hlength : message.length < 4294967296) (hnew : newObjects.length < 65536)
    (hdeleted : deletedObjects.length < 65536) :
    Delivers r message newObjects deletedObjects offset s ↔
      ReadsDestructions r message deletedObjects (destructionsStart newObjects offset)
        (constructed r message newObjects offset s) := by
  obtain ⟨hbefore, hat, hatp, hdestructions⟩ :=
    beforeDestructions_spec (r := r) (s := s) hmessage hlength hnew hdeleted
  have hoffsets := destructionsRead_eq_iff (r := r)
    (s := constructed r message newObjects offset s) hdestructions hlength
  have hread : destructionOffsets r message offset s = some (destructionsRead r message
      deletedObjects.length (destructionsStart newObjects offset)
        (constructed r message newObjects offset s)) := by
    rw [destructionOffsets, hbefore, Option.map_some]
  constructor
  · rintro ⟨-, -, hwritten⟩
    rw [hread] at hwritten
    exact hoffsets.mp (Option.some.inj hwritten)
  · intro hreads
    refine ⟨?_, ⟨hat, hatp, destructionsAt hdestructions hlength⟩, ?_⟩
    · rw [onConstruction_eq, hbefore, Option.bind_some]
      exact onDestructions_spec hdestructions hlength hreads
    · rw [hread, hoffsets.mpr hreads]

/-- A receiver whose callbacks accept everything and read nothing, with the objects that it has. -/
def silent : Receiver (List UInt64) where
  getObjectFromID s networkId := decide (networkId ∈ s)
  onDownloadExisting _ s := s
  queryRemoteConstruction _ _ _ := true
  refused _ s := s
  referenceInternal networkId _ s := networkId :: s
  onDownload _ s := s
  destroy networkId _ _ s := s.filter (· ≠ networkId)
  call _ _ _ offset s := (true, offset, s)

theorem readsDestructions_silent {deletedObjects : List DeletedObject} {s : List UInt64}
    (h : ∀ o ∈ deletedObjects, o.destruction = []) :
    ReadsDestructions silent message deletedObjects offset s := by
  induction deletedObjects generalizing offset s with
  | nil => trivial
  | cons o rest ih =>
    refine ⟨fun _ _ => ?_, ih fun o' ho' => h o' (List.mem_cons_of_mem o ho')⟩
    rw [h o List.mem_cons_self, List.length_nil, Nat.add_zero]
    rfl

/-- A replica that is new and two that are deleted, without anything written for the deletion. -/
theorem onConstruction_delivers_silent : Delivers silent
    (sendConstruction [⟨1, true, 7, [true], [true, false], [true]⟩] [⟨2, 7, []⟩, ⟨3, 7, []⟩] 0)
    [⟨1, true, 7, [true], [true, false], [true]⟩] [⟨2, 7, []⟩, ⟨3, 7, []⟩] 0 [2, 3] := by
  refine (onConstruction_delivers_iff silent _ [⟨1, true, 7, [true], [true, false], [true]⟩]
    [⟨2, 7, []⟩, ⟨3, 7, []⟩] 0 [2, 3] ?_ ?_ (by decide) (by decide)).mpr ?_
  · exact List.prefix_rfl
  · decide +kernel
  · exact readsDestructions_silent (by decide)

/-- A `DeserializeDestruction` that reads less than was written: the next replica is looked for in
what it has left. -/
theorem destruction_not_read : ¬∀ (r : Receiver (List UInt64)) (deletedObjects : List DeletedObject)
    (s : List UInt64), (∀ message, ∀ o ∈ deletedObjects, ∀ offset s,
      destructionStart offset ≤ (r.call .deserializeDestruction o.networkId message
          (destructionStart offset) s).2.1 ∧
        (r.call .deserializeDestruction o.networkId message (destructionStart offset) s).2.1 ≤
          destructionStart offset + o.destruction.length) →
    onConstruction r (sendConstruction [] deletedObjects 0) 0 s =
      some (deliver r (sendConstruction [] deletedObjects 0) [] deletedObjects 0 s) := by
  intro hall
  have hdelivered := hall silent [⟨2, 7, List.replicate 8 true⟩, ⟨3, 7, []⟩] [2, 3]
    fun _ o _ offset _ => ⟨le_rfl, Nat.le_add_right _ _⟩
  exact absurd hdelivered (by decide +kernel)

end ConstructionMessage

end SLikeNet
