import SLikeNet.PushedBlocks

/-! The progress that `OnReferencePush` reports for a file that is sent chunk by chunk. -/

namespace SLikeNet

open BitCursor PacketReads

namespace FileListTransfer

/-! ### The chunks of a file -/

/-- What a file of a set is sent with, and its `chunkSize`. -/
structure FileToPush where
  filename : List UInt8
  setIndex : ℕ
  dataLengthBytes : ℕ
  chunkSize : ℕ
  dataLengthBytes_lt : dataLengthBytes < 2 ^ 32
  chunkSize_pos : 0 < chunkSize

/-- One call of `SendIRIToAddressCB` after the other, each with the bytes that `GetFilePart` gives
from the current offset on. -/
def sentFrom (ftp : FileToPush) (currentOffset : ℕ) : List PushedChunk :=
  let bytesRead := min ftp.chunkSize (ftp.dataLengthBytes - currentOffset)
  let done := decide (ftp.dataLengthBytes = currentOffset + bytesRead)
  let chunk : PushedChunk :=
    ⟨ftp.filename, ftp.setIndex, ftp.dataLengthBytes, currentOffset, bytesRead, done⟩
  if _h : currentOffset + bytesRead < ftp.dataLengthBytes then
    chunk :: sentFrom ftp (currentOffset + bytesRead)
  else [chunk]
termination_by ftp.dataLengthBytes - currentOffset
decreasing_by
  have := ftp.chunkSize_pos
  omega

def sentChunks (ftp : FileToPush) : List PushedChunk := sentFrom ftp 0

def chunkAt (ftp : FileToPush) (i : ℕ) : PushedChunk :=
  ⟨ftp.filename, ftp.setIndex, ftp.dataLengthBytes, i * ftp.chunkSize,
    min ftp.chunkSize (ftp.dataLengthBytes - i * ftp.chunkSize),
    decide (ftp.dataLengthBytes = i * ftp.chunkSize +
      min ftp.chunkSize (ftp.dataLengthBytes - i * ftp.chunkSize))⟩

/-- The number of chunks before the last one. -/
def lastIndex (ftp : FileToPush) : ℕ := (ftp.dataLengthBytes - 1) / ftp.chunkSize

theorem lastIndex_lt_iff (ftp : FileToPush) (i : ℕ) :
    i < lastIndex ftp ↔ (i + 1) * ftp.chunkSize < ftp.dataLengthBytes := by
  rw [lastIndex, Nat.lt_iff_add_one_le, Nat.le_div_iff_mul_le ftp.chunkSize_pos]
  have hpos : 0 < (i + 1) * ftp.chunkSize := Nat.mul_pos (Nat.succ_pos i) ftp.chunkSize_pos
  omega

theorem sentFrom_eq (ftp : FileToPush) {i count : ℕ} (h : i + count = lastIndex ftp) :
    sentFrom ftp (i * ftp.chunkSize) = (List.range' i (count + 1)).map (chunkAt ftp) := by
  have hstep := lastIndex_lt_iff ftp i
  have hsucc : (i + 1) * ftp.chunkSize = i * ftp.chunkSize + ftp.chunkSize := Nat.succ_mul _ _
  -- on the number of chunks that are still to come
  induction count generalizing i with
  | zero =>
    have hend : ¬ i * ftp.chunkSize +
        min ftp.chunkSize (ftp.dataLengthBytes - i * ftp.chunkSize) < ftp.dataLengthBytes := by
      omega
    rw [sentFrom, dif_neg hend]
    rfl
  | succ count ih =>
    have hmin : min ftp.chunkSize (ftp.dataLengthBytes - i * ftp.chunkSize) = ftp.chunkSize := by
      omega
    have hhead : chunkAt ftp i = ⟨ftp.filename, ftp.setIndex, ftp.dataLengthBytes,
        i * ftp.chunkSize, ftp.chunkSize,
        decide (ftp.dataLengthBytes = (i + 1) * ftp.chunkSize)⟩ := by
      rw [chunkAt, hmin, hsucc]
    rw [sentFrom, dif_pos (by omega), hmin, ← hsucc,
      ih (by omega) (lastIndex_lt_iff ftp (i + 1)) (Nat.succ_mul _ _), ← hhead]
    rfl

theorem sentChunks_eq (ftp : FileToPush) :
    sentChunks ftp = (List.range (lastIndex ftp + 1)).map (chunkAt ftp) := by
  have h := sentFrom_eq ftp (Nat.zero_add (lastIndex ftp))
  rwa [Nat.zero_mul, ← List.range_eq_range'] at h

/-! ### What is reported -/

/-- The numbers of a call and of the whole are consistent: the calls count up, and the last one
says that it is the last. -/
structure IsConsistent (progress : List (ℕ × ℕ)) : Prop where
  partTotal_eq : ∃ partTotal, ∀ call ∈ progress, call.2 = partTotal
  partCount_eq : progress.map Prod.fst = List.range progress.length
  partCount_lt : ∀ call ∈ progress, call.1 < call.2
  last_iff : ∀ (j : ℕ) (call : ℕ × ℕ), progress[j]? = some call →
    (call.1 + 1 = call.2 ↔ j + 1 = progress.length)

/-- `partCount` and `partTotal` of the call for a chunk. -/
def progressOf (chunk : PushedChunk) : ℕ × ℕ :=
  (currentNotificationIndex chunk, totalNotifications chunk)

theorem progressOf_lone {ftp : FileToPush} (h : ftp.dataLengthBytes ≤ ftp.chunkSize) :
    progressOf (chunkAt ftp 0) = (0, 1) := by
  have hlength : (chunkAt ftp 0).chunkLength = ftp.dataLengthBytes := by
    rw [chunkAt, Nat.zero_mul]
    show min ftp.chunkSize (ftp.dataLengthBytes - 0) = _
    omega
  have hoffset : (chunkAt ftp 0).offset = 0 := Nat.zero_mul _
  rw [progressOf, currentNotificationIndex, totalNotifications, hoffset, hlength, Nat.zero_div,
    ite_self, if_pos (.inr rfl)]

theorem progressOf_last {ftp : FileToPush} (h : ftp.chunkSize < ftp.dataLengthBytes) {r : ℕ}
    (hr : lastIndex ftp * ftp.chunkSize + r = ftp.dataLengthBytes) (hpos : 0 < r)
    (hle : r ≤ ftp.chunkSize) :
    progressOf (chunkAt ftp (lastIndex ftp)) =
      (lastIndex ftp * ftp.chunkSize / r,
        (lastIndex ftp * ftp.chunkSize / r + 1 + 1) % 2 ^ 32) := by
  have hlength : (chunkAt ftp (lastIndex ftp)).chunkLength = r := by
    rw [chunkAt]
    show min ftp.chunkSize (ftp.dataLengthBytes - lastIndex ftp * ftp.chunkSize) = r
    omega
  have hoffset : (chunkAt ftp (lastIndex ftp)).offset = lastIndex ftp * ftp.chunkSize := rfl
  have hfile : (chunkAt ftp (lastIndex ftp)).byteLengthOfThisFile = ftp.dataLengthBytes := rfl
  rw [progressOf, currentNotificationIndex, totalNotifications, hoffset, hlength, hfile,
    if_neg (by omega), if_neg (by omega), ← hr, Nat.add_div_right _ hpos]

theorem lastIndex_lt {ftp : FileToPush} (h : 0 < ftp.dataLengthBytes) :
    lastIndex ftp < ftp.dataLengthBytes := by
  have := Nat.div_le_self (ftp.dataLengthBytes - 1) ftp.chunkSize
  rw [lastIndex]
  omega

theorem not_isConsistent {ftp : FileToPush} (hlong : ftp.chunkSize < ftp.dataLengthBytes) :
    ¬ IsConsistent ((sentChunks ftp).map progressOf) := by
  intro h
  rw [sentChunks_eq] at h
  have hlength := ftp.dataLengthBytes_lt
  have hmul := Nat.div_mul_le_self (ftp.dataLengthBytes - 1) ftp.chunkSize
  have hmod := Nat.lt_div_mul_add (a := ftp.dataLengthBytes - 1) ftp.chunkSize_pos
  obtain ⟨r, hr⟩ := Nat.exists_eq_add_of_le (show lastIndex ftp * ftp.chunkSize ≤
    ftp.dataLengthBytes by rw [lastIndex]; omega)
  have hprogress := progressOf_last hlong hr.symm (by rw [lastIndex] at hr; omega)
    (by rw [lastIndex] at hr; omega)
  have hat : (((List.range (lastIndex ftp + 1)).map (chunkAt ftp)).map
      progressOf)[lastIndex ftp]? = some (progressOf (chunkAt ftp (lastIndex ftp))) := by
    simp
  rw [hprogress] at hat
  have hcount := congrArg (·[lastIndex ftp]?) h.partCount_eq
  simp only [List.getElem?_map, List.length_map, List.length_range, Nat.lt_succ_self,
    List.getElem?_range, Option.map_some, hprogress, Option.some.injEq] at hcount
  have htotal := (h.last_iff _ _ hat).mpr (by simp)
  rw [hcount] at htotal
  have hk := lastIndex_lt (Nat.zero_lt_of_lt hlong)
  have htotal : lastIndex ftp + 1 = (lastIndex ftp + 1 + 1) % 2 ^ 32 := htotal
  omega

theorem isConsistent_iff (ftp : FileToPush) :
    IsConsistent ((sentChunks ftp).map progressOf) ↔ ftp.dataLengthBytes ≤ ftp.chunkSize := by
  constructor
  · intro h
    exact Nat.le_of_not_lt fun hlong => not_isConsistent hlong h
  · intro hshort
    have hlast : lastIndex ftp = 0 := Nat.div_eq_of_lt (by
      have hpos := ftp.chunkSize_pos
      omega)
    rw [sentChunks_eq, hlast, List.range_one, List.map_singleton, List.map_singleton,
      progressOf_lone hshort]
    refine ⟨⟨1, by simp⟩, by simp, by simp, ?_⟩
    intro j call hj
    obtain ⟨rfl, rfl⟩ : j = 0 ∧ (0, 1) = call := by
      cases j with
      | zero => exact ⟨rfl, by simpa using hj⟩
      | succ j => simp at hj
    simp

/-! ### The calls of a run -/

/-- The chunk that a push shows to the download handler, with its set. -/
def shownChunk (root : HuffmanEncodingTreeNode) (transfer : FileListTransfer) (push : Push) :
    Option (ℕ × PushedChunk) := do
  let ((_, setID, accepted), c) ← readPush root transfer push (openPacket push.data)
  let (_, chunk) ← accepted
  let c := { c with readOffset := c.readOffset + BitStream.padding c.readOffset }
  if chunk.Within ∧ chunk.chunkLength ≤ bitsToBytes (numberOfUnreadBits c) then
    some (setID, chunk)
  else none

def PushEvent.progress? : PushEvent → Option FileProgressStruct
  | .onFileProgress fps => some fps
  | _ => none

/-- The chunks that are shown in a run of pushes, and the calls of `OnFileProgress`. -/
def pushRun (root : HuffmanEncodingTreeNode) :
    FileListTransfer → List Push → Option (List (ℕ × PushedChunk) × List FileProgressStruct)
  | _, [] => some ([], [])
  | transfer, push :: pushes => do
    let (transfer', events) ← transfer.onReferencePush root push
    let (chunks, calls) ← pushRun root transfer' pushes
    some ((transfer.shownChunk root push).toList ++ chunks,
      events.filterMap PushEvent.progress? ++ calls)

def reported (fps : FileProgressStruct) : (ℕ × ℕ) × ℕ × ℕ :=
  ((fps.onFileStruct.setID, fps.onFileStruct.fileIndex), fps.partCount, fps.partTotal)

def due (shown : ℕ × PushedChunk) : (ℕ × ℕ) × ℕ × ℕ :=
  ((shown.1, shown.2.fileIndex), progressOf shown.2)

theorem finishPush_reported (transfer : FileListTransfer) (push : Push) (setID : ℕ)
    (fileListReceiver : FileListReceiver) (chunk : PushedChunk) (fps : FileProgressStruct) :
    ((transfer.finishPush push setID fileListReceiver chunk fps).2.filterMap
      PushEvent.progress?).map reported = [reported fps] := by
  rw [finishPush]
  by_cases hlast : chunk.lastChunk
  · rw [if_pos hlast]
    dsimp only
    by_cases hcount : fps.partCount = 0
    · by_cases htotal : fps.partTotal = 1
      · simp only [hcount, htotal, if_true]
        split <;> simp [PushEvent.progress?, reported, hcount, htotal]
      · simp only [hcount, htotal, if_true, if_false]
        split <;> simp [PushEvent.progress?, reported, hcount]
    · by_cases htotal : fps.partTotal = 1
      · simp only [hcount, htotal, if_true, if_false]
        split <;> simp [PushEvent.progress?, reported, htotal]
      · simp only [hcount, htotal, if_false]
        split <;> simp [PushEvent.progress?, reported]
  · rw [if_neg hlast]
    rfl

theorem storeChunk_reported {transfer transfer' : FileListTransfer} {push : Push}
    {context : FileListNodeContext} {setID : ℕ} {fileListReceiver : FileListReceiver}
    {chunk : PushedChunk} {c : Cursor} {events : List PushEvent}
    (h : transfer.storeChunk push context setID fileListReceiver chunk c =
      some (transfer', events)) :
    (events.filterMap PushEvent.progress?).map reported =
      if chunk.Within ∧ chunk.chunkLength ≤ bitsToBytes (numberOfUnreadBits
          { c with readOffset := c.readOffset + BitStream.padding c.readOffset }) then
        [due (setID, chunk)]
      else [] := by
  rw [storeChunk] at h
  by_cases hwithin : chunk.Within
  · rw [if_pos hwithin] at h
    dsimp only at h
    split at h
    · rename_i hmore
      rw [if_neg fun hall => absurd hall.2 (Nat.not_le_of_lt hmore)]
      obtain ⟨-, rfl⟩ := Prod.mk.inj (Option.some.inj h)
      rfl
    · rename_i hmore
      rw [if_pos ⟨hwithin, Nat.le_of_not_lt hmore⟩]
      obtain ⟨⟨block, iriDataChunk⟩, -, hfinish⟩ := Option.bind_eq_some_iff.mp h
      have hevents := congrArg Prod.snd (Option.some.inj hfinish)
      dsimp only at hevents
      rw [← hevents, finishPush_reported]
      rfl
  · rw [if_neg hwithin] at h
    rw [if_neg fun hall => hwithin hall.1]
    obtain ⟨-, rfl⟩ := Prod.mk.inj (Option.some.inj h)
    rfl

theorem onReferencePush_reported {root : HuffmanEncodingTreeNode}
    {transfer transfer' : FileListTransfer} {push : Push} {events : List PushEvent}
    (h : transfer.onReferencePush root push = some (transfer', events)) :
    (events.filterMap PushEvent.progress?).map reported =
      (transfer.shownChunk root push).toList.map due := by
  cases hread : readPush root transfer push (openPacket push.data) with
  | none =>
    rw [onReferencePush, hread] at h
    cases h
  | some result =>
    obtain ⟨⟨context, setID, accepted⟩, c⟩ := result
    cases accepted with
    | none =>
      rw [onReferencePush_refused hread] at h
      obtain ⟨-, rfl⟩ := Prod.mk.inj (Option.some.inj h)
      rw [shownChunk, hread]
      rfl
    | some accepted =>
      obtain ⟨fileListReceiver, chunk⟩ := accepted
      rw [onReferencePush_accepted hread] at h
      obtain ⟨⟨transfer'', stored⟩, hstore, heq⟩ := Option.map_eq_some_iff.mp h
      obtain ⟨-, rfl⟩ := Prod.mk.inj heq
      have hshown : transfer.shownChunk root push =
          if chunk.Within ∧ chunk.chunkLength ≤ bitsToBytes (numberOfUnreadBits
              { c with readOffset := c.readOffset + BitStream.padding c.readOffset }) then
            some (setID, chunk)
          else none := by
        rw [shownChunk, hread]
        rfl
      rw [hshown, List.filterMap_cons_none rfl, storeChunk_reported hstore]
      split <;> rfl

theorem pushRun_reported {root : HuffmanEncodingTreeNode} {transfer : FileListTransfer}
    {pushes : List Push} {chunks : List (ℕ × PushedChunk)} {calls : List FileProgressStruct}
    (h : pushRun root transfer pushes = some (chunks, calls)) :
    calls.map reported = chunks.map due := by
  induction pushes generalizing transfer chunks calls with
  | nil =>
    obtain ⟨rfl, rfl⟩ := Prod.mk.inj (Option.some.inj h)
    rfl
  | cons push pushes ih =>
    obtain ⟨⟨transfer', events⟩, hpush, hrest⟩ := Option.bind_eq_some_iff.mp h
    obtain ⟨⟨chunks', calls'⟩, hrun, heq⟩ := Option.bind_eq_some_iff.mp hrest
    obtain ⟨rfl, rfl⟩ := Prod.mk.inj (Option.some.inj heq)
    rw [List.map_append, List.map_append, ih hrun, onReferencePush_reported hpush]

/-- The calls for a file of a set, with the numbers they report. -/
def progressCalls (setID setIndex : ℕ) (calls : List FileProgressStruct) : List (ℕ × ℕ) :=
  ((calls.map reported).filter fun call => call.1 = (setID, setIndex)).map Prod.snd

def fileChunks (setID setIndex : ℕ) (chunks : List (ℕ × PushedChunk)) :
    List (ℕ × PushedChunk) :=
  chunks.filter fun shown => (shown.1, shown.2.fileIndex) = (setID, setIndex)

/-- In every run of pushes the calls for a file that was sent chunk by chunk are consistent exactly
if it is not longer than a chunk. -/
theorem progress_iff {root : HuffmanEncodingTreeNode} {transfer : FileListTransfer}
    {pushes : List Push} {chunks : List (ℕ × PushedChunk)} {calls : List FileProgressStruct}
    (hrun : pushRun root transfer pushes = some (chunks, calls)) (setID : ℕ) (ftp : FileToPush)
    (hsent : fileChunks setID ftp.setIndex chunks = (sentChunks ftp).map fun c => (setID, c)) :
    IsConsistent (progressCalls setID ftp.setIndex calls) ↔
      ftp.dataLengthBytes ≤ ftp.chunkSize := by
  have hcalls : progressCalls setID ftp.setIndex calls = (sentChunks ftp).map progressOf := by
    have hfilter : (fun call : (ℕ × ℕ) × ℕ × ℕ => decide (call.1 = (setID, ftp.setIndex))) ∘ due =
        fun shown : ℕ × PushedChunk =>
          decide ((shown.1, shown.2.fileIndex) = (setID, ftp.setIndex)) := rfl
    rw [progressCalls, pushRun_reported hrun, List.filter_map, hfilter, ← fileChunks, hsent,
      List.map_map, List.map_map]
    rfl
  rw [hcalls, isConsistent_iff]

deriving instance DecidableEq for PushedChunk

/-- A byte of the file at index `0`, which has no name and two bytes. -/
def halfOf (offset : ℕ) (lastChunk : Bool) : Push :=
  { lastByte 2 with
    body := List.replicate 15 0 ++
      bytesOf (BitStream.align (compressedBits 0 ++ compressedBits 0 ++ compressedBits 2 ++
        compressedBits offset ++ compressedBits 1 ++ [lastChunk])) ++ [65] }

def twoBytes : FileToPush := ⟨[], 0, 2, 1, by decide, by decide⟩

theorem twoBytes_run :
    ∃ chunks calls,
      pushRun (.node (.leaf 0) (.leaf 1)) oneFile [halfOf 0 false, halfOf 1 true] =
          some (chunks, calls) ∧
        fileChunks 0 0 chunks = (sentChunks twoBytes).map (fun c => (0, c)) ∧
        progressCalls 0 0 calls = [(0, 3), (1, 3)] := by
  obtain ⟨run, hrun⟩ : ∃ run, run =
      pushRun (.node (.leaf 0) (.leaf 1)) oneFile [halfOf 0 false, halfOf 1 true] := ⟨_, rfl⟩
  have hchunks : run.map (fun result => fileChunks 0 0 result.1) =
      some (((List.range (lastIndex twoBytes + 1)).map (chunkAt twoBytes)).map
        fun c => (0, c)) := by
    rw [hrun]
    decide +kernel
  have hcalls : run.map (fun result => progressCalls 0 0 result.2) = some [(0, 3), (1, 3)] := by
    rw [hrun]
    decide +kernel
  obtain ⟨⟨chunks, calls⟩, hsome, hcalls⟩ := Option.map_eq_some_iff.mp hcalls
  rw [hsome] at hrun hchunks
  refine ⟨chunks, calls, hrun.symm, ?_, hcalls⟩
  rw [sentChunks_eq]
  exact Option.some.inj hchunks

theorem twoBytes_not_consistent :
    ∃ chunks calls,
      pushRun (.node (.leaf 0) (.leaf 1)) oneFile [halfOf 0 false, halfOf 1 true] =
          some (chunks, calls) ∧
        ¬ IsConsistent (progressCalls 0 0 calls) := by
  obtain ⟨chunks, calls, hrun, hsent, -⟩ := twoBytes_run
  refine ⟨chunks, calls, hrun, fun h => ?_⟩
  exact absurd ((progress_iff hrun 0 twoBytes hsent).mp h) (by decide)

theorem progress_stops_short :
    ¬ ∀ (root : HuffmanEncodingTreeNode) (transfer : FileListTransfer) (pushes : List Push)
      (chunks : List (ℕ × PushedChunk)) (calls : List FileProgressStruct),
      pushRun root transfer pushes = some (chunks, calls) →
        ∀ (setID : ℕ) (ftp : FileToPush),
          fileChunks setID ftp.setIndex chunks = (sentChunks ftp).map (fun c => (setID, c)) →
            IsConsistent (progressCalls setID ftp.setIndex calls) := by
  intro h
  obtain ⟨chunks, calls, hrun, hsent, hcalls⟩ := twoBytes_run
  have hconsistent := h _ _ _ _ _ hrun 0 twoBytes hsent
  rw [show twoBytes.setIndex = 0 from rfl, hcalls] at hconsistent
  have hlast := hconsistent.last_iff 1 (1, 3) rfl
  revert hlast
  decide

end FileListTransfer

end SLikeNet
