import SLikeNet.Library.Transition
import SLikeNet.ReplicaPackets

/-! A download that is grouped is given back to `Receive` behind the packets that wait there
already. What is waiting then is held for good, and the packets of the download have their
timestamps shifted once more. -/

namespace SLikeNet

variable {settings : ConnectionSettings}

/-- The packets in the order in which they come in. -/
def arrivals (inputs : List ReplicaInput) : List ReplicaPacket :=
  inputs.filterMap fun input =>
    match input with
    | .arrive data wasGeneratedLocally => some ⟨data, wasGeneratedLocally, 0⟩
    | .receive _ => none

namespace ConnectionSettings

/-- What the objects get of packets that are processed on arrival, each shifted once. -/
def onArrival (settings : ConnectionSettings) (packets : List ReplicaPacket)
    (differentials : List UInt64) : List ReplicaUpdate :=
  (List.zipWith (fun packet differential => settings.update (packet.take differential)) packets
    differentials).filterMap id

theorem onArrival_append {packets : List ReplicaPacket} {differentials : List UInt64}
    (hlength : packets.length = differentials.length) (packet : ReplicaPacket)
    (differential : UInt64) :
    settings.onArrival (packets ++ [packet]) (differentials ++ [differential]) =
      settings.onArrival packets differentials ++
        (settings.update (packet.take differential)).toList := by
  rw [onArrival, List.zipWith_append hlength, List.filterMap_append, onArrival]
  cases h : settings.update (packet.take differential) with
  | none => simp [h]
  | some update => simp [h]

/-- The packets of a download and later ones, where packets of other connections may come in
between. -/
def IsDownload (settings : ConnectionSettings) (packets : List ReplicaPacket) : Prop :=
  ∃ others started held complete later,
    packets = others ++ started :: held ++ complete :: later ∧
    (∀ p ∈ others, settings.Plain p ∧ settings.update p = none) ∧
    started.isDownloadStarted settings.worldId = true ∧
    (∀ p ∈ held, settings.Plain p) ∧
    complete.isDownloadComplete settings.worldId = true ∧
    ∀ p ∈ later, settings.Plain p

theorem onArrival_append_none {packets : List ReplicaPacket} {differentials : List UInt64}
    (hlength : packets.length = differentials.length) {packet : ReplicaPacket}
    {differential : UInt64} (h : settings.update (packet.take differential) = none) :
    settings.onArrival (packets ++ [packet]) (differentials ++ [differential]) =
      settings.onArrival packets differentials := by
  rw [onArrival_append hlength, h, Option.toList_none, List.append_nil]

/-- When the end of the download is taken from the queue no packet for the objects waits there,
and no packet of the download has its timestamp shifted when it is taken once more. -/
def Unharmed (settings : ConnectionSettings) (connection : ReplicaConnection) :
    ReplicaInput → Prop
  | .arrive _ _ => True
  | .receive differential => ∀ packet ∈ connection.packetReturnQueue.head?,
      (packet.isDownloadComplete settings.worldId = true →
        connection.groupConstructionAndSerialize = true → connection.downloadGroup ≠ [] →
        ∀ waiting ∈ connection.packetReturnQueue.tail, settings.update waiting = none) ∧
      (packet.passes ≠ 0 → (settings.update packet).isSome = true → Timestamped packet.data →
        differential = 0)

instance (settings : ConnectionSettings) (connection : ReplicaConnection) :
    (input : ReplicaInput) → Decidable (settings.Unharmed connection input)
  | .arrive _ _ => isTrue trivial
  | .receive _ => inferInstanceAs (Decidable (∀ packet ∈ connection.packetReturnQueue.head?, _ ∧ _))

/-- A packet that was held. -/
def Kept (settings : ConnectionSettings) (packet : ReplicaPacket) : Prop :=
  settings.Plain packet ∧ (settings.update packet).isSome = true ∧
    ∃ original : ReplicaPacket, ∃ differential, packet = original.take differential

end ConnectionSettings

namespace ReplicaConnection

open ConnectionSettings

variable {all toCome : List ReplicaPacket} {connection : ReplicaConnection} {fine : Prop}
  {differential : UInt64}

/-- How far a download has come, when packets are still to come in; `fine` says that no step has
done harm so far. -/
inductive Stage (settings : ConnectionSettings) (all : List ReplicaPacket)
    (connection : ReplicaConnection) (toCome : List ReplicaPacket) (fine : Prop) : Prop
  /-- The start of the download has not been taken from the queue. -/
  | before (popped others : List ReplicaPacket) (started : ReplicaPacket)
      (held : List ReplicaPacket) (complete : ReplicaPacket) (later : List ReplicaPacket)
      (hlength : popped.length = connection.firstDifferentials.length)
      (hall : all = popped ++ (connection.packetReturnQueue ++ toCome))
      (hqueue : connection.packetReturnQueue ++ toCome =
        others ++ started :: (held ++ complete :: later))
      (hothers : ∀ p ∈ others, settings.Plain p ∧ settings.update p = none)
      (hstarted : started.isDownloadStarted settings.worldId = true)
      (hheld : ∀ p ∈ held, settings.Plain p)
      (hcomplete : complete.isDownloadComplete settings.worldId = true)
      (hlater : ∀ p ∈ later, settings.Plain p)
      (hflag : connection.groupConstructionAndSerialize = false)
      (hgroup : connection.downloadGroup = [])
      (hgot : connection.gotDownloadComplete = false)
      (hprocessed : connection.processed = [])
      (hdue : settings.onArrival popped connection.firstDifferentials = [])
      (hfine : fine)
  /-- The packets of the download are held. -/
  | holding (popped held : List ReplicaPacket) (complete : ReplicaPacket)
      (later : List ReplicaPacket) (started : ReplicaPacket) (kept : List ReplicaPacket)
      (hlength : popped.length = connection.firstDifferentials.length)
      (hall : all = popped ++ (connection.packetReturnQueue ++ toCome))
      (hqueue : connection.packetReturnQueue ++ toCome = held ++ complete :: later)
      (hheld : ∀ p ∈ held, settings.Plain p)
      (hcomplete : complete.isDownloadComplete settings.worldId = true)
      (hlater : ∀ p ∈ later, settings.Plain p)
      (hflag : connection.groupConstructionAndSerialize = true)
      (hgroup : connection.downloadGroup = started :: kept)
      (hstarted : started.isDownloadStarted settings.worldId = true)
      (hpassed : started.passes ≠ 0)
      (hkept : ∀ p ∈ kept, settings.Kept p)
      (hgot : connection.gotDownloadComplete = false)
      (hprocessed : connection.processed = [])
      (hdue : settings.onArrival popped connection.firstDifferentials =
        kept.filterMap settings.update)
      (hfine : fine)
  /-- The download is back in the queue, behind the packets that were waiting there. -/
  | waiting (popped front behind : List ReplicaPacket) (started : ReplicaPacket)
      (kept : List ReplicaPacket) (complete : ReplicaPacket)
      (hlength : popped.length = connection.firstDifferentials.length)
      (hall : all = popped ++ (front ++ behind ++ toCome))
      (hqueue : connection.packetReturnQueue = front ++ started :: (kept ++ complete :: behind))
      (hlater : ∀ p ∈ front ++ behind ++ toCome, settings.Plain p)
      (hstarted : started.isDownloadStarted settings.worldId = true)
      (hpassed : started.passes ≠ 0)
      (hkept : ∀ p ∈ kept, settings.Kept p)
      (hcomplete : complete.isDownloadComplete settings.worldId = true)
      (hcompletePassed : complete.passes ≠ 0)
      (hflag : connection.groupConstructionAndSerialize = true)
      (hover : ∀ p ∈ connection.downloadGroup, settings.Kept p)
      (hgot : connection.gotDownloadComplete = false)
      (hprocessed : connection.processed = [])
      (hdue : settings.onArrival popped connection.firstDifferentials =
        kept.filterMap settings.update ++ connection.downloadGroup.filterMap settings.update)
      (hfine : fine ↔ connection.downloadGroup = [] ∧ ∀ p ∈ front, settings.update p = none)
  /-- The packets of the download are processed. -/
  | returning (popped behind kept : List ReplicaPacket) (complete : ReplicaPacket)
      (due : List ReplicaUpdate)
      (hlength : popped.length = connection.firstDifferentials.length)
      (hall : all = popped ++ (behind ++ toCome))
      (hqueue : connection.packetReturnQueue = kept ++ complete :: behind)
      (hlater : ∀ p ∈ behind ++ toCome, settings.Plain p)
      (hkept : ∀ p ∈ kept, settings.Kept p)
      (hcomplete : complete.isDownloadComplete settings.worldId = true)
      (hcompletePassed : complete.passes ≠ 0)
      (hflag : connection.groupConstructionAndSerialize = false)
      (hover : ∀ p ∈ connection.downloadGroup, settings.Kept p)
      (hgot : connection.gotDownloadComplete = false)
      (hdueLength : connection.processed.length = due.length)
      (hdue : settings.onArrival popped connection.firstDifferentials =
        due ++ kept.filterMap settings.update ++
          connection.downloadGroup.filterMap settings.update)
      (hfine : fine ↔ connection.downloadGroup = [] ∧ connection.processed = due)
  /-- The end of the download has been processed. -/
  | done (popped : List ReplicaPacket) (processed due after : List ReplicaUpdate)
      (hlength : popped.length = connection.firstDifferentials.length)
      (hall : all = popped ++ (connection.packetReturnQueue ++ toCome))
      (hlater : ∀ p ∈ connection.packetReturnQueue ++ toCome, settings.Plain p)
      (hflag : connection.groupConstructionAndSerialize = false)
      (hover : ∀ p ∈ connection.downloadGroup, settings.Kept p)
      (hgot : connection.gotDownloadComplete = true)
      (hprocessed : connection.processed = processed ++ after)
      (hdue : settings.onArrival popped connection.firstDifferentials =
        due ++ connection.downloadGroup.filterMap settings.update ++ after)
      (hfine : fine ↔ connection.downloadGroup = [] ∧ processed = due)

/-! ### One step -/

theorem receive_nil (hqueue : connection.packetReturnQueue = []) :
    connection.receive settings differential = connection := by
  rw [receive, hqueue]

theorem receive_fresh {packet : ReplicaPacket} {packets : List ReplicaPacket}
    (hqueue : connection.packetReturnQueue = packet :: packets) (hfresh : packet.passes = 0) :
    connection.receive settings differential =
      (connection.pop packets (connection.firstDifferentials ++ [differential])).onReceive settings
        (packet.take differential) := by
  rw [receive, hqueue]
  show (connection.pop packets (if packet.passes = 0 then _ else _)).onReceive settings _ = _
  rw [if_pos hfresh]

theorem receive_again {packet : ReplicaPacket} {packets : List ReplicaPacket}
    (hqueue : connection.packetReturnQueue = packet :: packets) (hpassed : packet.passes ≠ 0) :
    connection.receive settings differential =
      (connection.pop packets connection.firstDifferentials).onReceive settings
        (packet.take differential) := by
  rw [receive, hqueue]
  show (connection.pop packets (if packet.passes = 0 then _ else _)).onReceive settings _ = _
  rw [if_neg hpassed]

theorem unharmed_nil (hqueue : connection.packetReturnQueue = []) :
    settings.Unharmed connection (.receive differential) := by
  intro packet hpacket
  rw [hqueue] at hpacket
  exact absurd hpacket (by simp)

theorem unharmed_cons_iff {packet : ReplicaPacket} {packets : List ReplicaPacket}
    (hqueue : connection.packetReturnQueue = packet :: packets) :
    settings.Unharmed connection (.receive differential) ↔
      (packet.isDownloadComplete settings.worldId = true →
        connection.groupConstructionAndSerialize = true → connection.downloadGroup ≠ [] →
        ∀ waiting ∈ packets, settings.update waiting = none) ∧
      (packet.passes ≠ 0 → (settings.update packet).isSome = true → Timestamped packet.data →
        differential = 0) := by
  rw [ConnectionSettings.Unharmed, hqueue]
  simp

theorem unharmed_fresh {packet : ReplicaPacket} {packets : List ReplicaPacket}
    (hqueue : connection.packetReturnQueue = packet :: packets) (hfresh : packet.passes = 0)
    (hcomplete : packet.isDownloadComplete settings.worldId = false) :
    settings.Unharmed connection (.receive differential) := by
  rw [unharmed_cons_iff hqueue, hcomplete, hfresh]
  simp

theorem Stage.congr {fine' : Prop} (h : Stage settings all connection toCome fine)
    (hfine : fine ↔ fine') : Stage settings all connection toCome fine' := by
  obtain rfl : fine = fine' := propext hfine
  exact h

section

variable {packet : ReplicaPacket} {packets : List ReplicaPacket} {differentials : List UInt64}

theorem onReceive_not_held (hplain : settings.Plain packet)
    (hflag : connection.groupConstructionAndSerialize = false) :
    (connection.pop packets differentials).onReceive settings (packet.take differential) =
      { connection.pop packets differentials with
        processed := connection.processed ++
          (settings.update (packet.take differential)).toList } := by
  rw [onReceive_plain (plain_take hplain)]
  cases settings.update (packet.take differential) with
  | none => simp [pop]
  | some update => simp [pop, onUpdate, hflag]

theorem onReceive_held (hplain : settings.Plain packet)
    (hflag : connection.groupConstructionAndSerialize = true) :
    (connection.pop packets differentials).onReceive settings (packet.take differential) =
      { connection.pop packets differentials with
        downloadGroup := connection.downloadGroup ++
          if (settings.update packet).isSome then [packet.take differential] else [] } := by
  rw [onReceive_plain (plain_take hplain), ← update_isSome_take]
  cases settings.update (packet.take differential) with
  | none => simp [pop]
  | some update => simp [pop, onUpdate, hflag]

theorem onReceive_first_start (hgrouped : settings.queryGroupDownloadMessages = true)
    (hstarted : packet.isDownloadStarted settings.worldId = true)
    (hflag : connection.groupConstructionAndSerialize = false) :
    (connection.pop packets differentials).onReceive settings (packet.take differential) =
      { connection.pop packets differentials with
        groupConstructionAndSerialize := true
        downloadGroup := connection.downloadGroup ++ [packet.take differential] } := by
  rw [onReceive_started (by rw [ReplicaPacket.isDownloadStarted_take]; exact hstarted)]
  simp [onDownloadStarted, pop, hgrouped, hflag]

theorem onReceive_second_start (hstarted : packet.isDownloadStarted settings.worldId = true)
    (hflag : connection.groupConstructionAndSerialize = true) :
    (connection.pop packets differentials).onReceive settings (packet.take differential) =
      { connection.pop packets differentials with groupConstructionAndSerialize := false } := by
  rw [onReceive_started (by rw [ReplicaPacket.isDownloadStarted_take]; exact hstarted)]
  simp [onDownloadStarted, pop, hflag]

theorem onReceive_first_end (hcomplete : packet.isDownloadComplete settings.worldId = true)
    (hflag : connection.groupConstructionAndSerialize = true)
    (hgroup : connection.downloadGroup ≠ []) :
    (connection.pop packets differentials).onReceive settings (packet.take differential) =
      { connection.pop (packets ++ connection.downloadGroup ++ [packet.take differential])
          differentials with downloadGroup := [] } := by
  rw [onReceive_complete (by rw [ReplicaPacket.isDownloadComplete_take]; exact hcomplete)]
  simp [onDownloadComplete, pop, hflag, hgroup]

theorem onReceive_second_end (hcomplete : packet.isDownloadComplete settings.worldId = true)
    (hflag : connection.groupConstructionAndSerialize = false) :
    (connection.pop packets differentials).onReceive settings (packet.take differential) =
      { connection.pop packets differentials with gotDownloadComplete := true } := by
  rw [onReceive_complete (by rw [ReplicaPacket.isDownloadComplete_take]; exact hcomplete)]
  simp [onDownloadComplete, pop, hflag]

end

theorem stage_before {popped others held later : List ReplicaPacket}
    {started complete : ReplicaPacket} (hgrouped : settings.queryGroupDownloadMessages = true)
    (hfresh : ∀ p ∈ all, p.passes = 0)
    (hlength : popped.length = connection.firstDifferentials.length)
    (hall : all = popped ++ (connection.packetReturnQueue ++ toCome))
    (hqueue : connection.packetReturnQueue ++ toCome =
      others ++ started :: (held ++ complete :: later))
    (hothers : ∀ p ∈ others, settings.Plain p ∧ settings.update p = none)
    (hstarted : started.isDownloadStarted settings.worldId = true)
    (hheld : ∀ p ∈ held, settings.Plain p)
    (hcomplete : complete.isDownloadComplete settings.worldId = true)
    (hlater : ∀ p ∈ later, settings.Plain p)
    (hflag : connection.groupConstructionAndSerialize = false)
    (hgroup : connection.downloadGroup = [])
    (hgot : connection.gotDownloadComplete = false)
    (hprocessed : connection.processed = [])
    (hdue : settings.onArrival popped connection.firstDifferentials = []) (hfine : fine) :
    Stage settings all (connection.receive settings differential) toCome
      (fine ∧ settings.Unharmed connection (.receive differential)) := by
  cases hhead : connection.packetReturnQueue with
  | nil =>
    rw [receive_nil hhead]
    exact .before popped others started held complete later hlength hall hqueue hothers hstarted
      hheld hcomplete hlater hflag hgroup hgot hprocessed hdue ⟨hfine, unharmed_nil hhead⟩
  | cons packet packets =>
    have hnew : packet.passes = 0 := hfresh packet (by rw [hall, hhead]; simp)
    rw [hhead, List.cons_append] at hqueue hall
    rw [receive_fresh hhead hnew]
    have hpop : all = (popped ++ [packet]) ++ (packets ++ toCome) := by
      rw [hall, List.append_assoc, List.singleton_append]
    have hlength' : (popped ++ [packet]).length =
        (connection.firstDifferentials ++ [differential]).length := by simp [hlength]
    cases others with
    | nil =>
      obtain ⟨rfl, hrest⟩ := List.cons.inj hqueue
      rw [onReceive_first_start hgrouped hstarted hflag, hgroup]
      refine .holding (popped ++ [packet]) held complete later (packet.take differential) []
        hlength' hpop hrest hheld hcomplete hlater rfl rfl ?_ (Nat.succ_ne_zero _) ?_ hgot
        hprocessed ?_ ⟨hfine, ?_⟩
      · rw [ReplicaPacket.isDownloadStarted_take]
        exact hstarted
      · simp
      · exact (onArrival_append_none hlength (update_take_none (update_of_started hstarted))).trans
          hdue
      · exact unharmed_fresh hhead hnew (ReplicaPacket.not_complete_of_started hstarted)
    | cons other others =>
      obtain ⟨rfl, hrest⟩ := List.cons.inj hqueue
      obtain ⟨hplain, hnone⟩ := hothers _ (List.mem_cons_self ..)
      rw [onReceive_not_held hplain hflag, update_take_none hnone]
      refine .before (popped ++ [packet]) others started held complete later hlength' hpop hrest
        (fun p hp => hothers p (List.mem_cons_of_mem _ hp)) hstarted hheld hcomplete hlater hflag
        hgroup hgot ?_ ?_ ⟨hfine, unharmed_fresh hhead hnew hplain.2⟩
      · simp [hprocessed]
      · exact (onArrival_append_none hlength (update_take_none hnone)).trans hdue

theorem kept_take {packet : ReplicaPacket} (hplain : settings.Plain packet)
    (hsome : (settings.update packet).isSome = true) : settings.Kept (packet.take differential) :=
  ⟨plain_take hplain, by rw [update_isSome_take, hsome], packet, differential, rfl⟩

theorem stage_holding {popped held later kept : List ReplicaPacket}
    {complete started : ReplicaPacket} (hfresh : ∀ p ∈ all, p.passes = 0)
    (hlength : popped.length = connection.firstDifferentials.length)
    (hall : all = popped ++ (connection.packetReturnQueue ++ toCome))
    (hqueue : connection.packetReturnQueue ++ toCome = held ++ complete :: later)
    (hheld : ∀ p ∈ held, settings.Plain p)
    (hcomplete : complete.isDownloadComplete settings.worldId = true)
    (hlater : ∀ p ∈ later, settings.Plain p)
    (hflag : connection.groupConstructionAndSerialize = true)
    (hgroup : connection.downloadGroup = started :: kept)
    (hstarted : started.isDownloadStarted settings.worldId = true)
    (hpassed : started.passes ≠ 0) (hkept : ∀ p ∈ kept, settings.Kept p)
    (hgot : connection.gotDownloadComplete = false) (hprocessed : connection.processed = [])
    (hdue : settings.onArrival popped connection.firstDifferentials =
      kept.filterMap settings.update) (hfine : fine) :
    Stage settings all (connection.receive settings differential) toCome
      (fine ∧ settings.Unharmed connection (.receive differential)) := by
  cases hhead : connection.packetReturnQueue with
  | nil =>
    rw [receive_nil hhead]
    exact .holding popped held complete later started kept hlength hall hqueue hheld hcomplete
      hlater hflag hgroup hstarted hpassed hkept hgot hprocessed hdue ⟨hfine, unharmed_nil hhead⟩
  | cons packet packets =>
    have hnew : packet.passes = 0 := hfresh packet (by rw [hall, hhead]; simp)
    rw [hhead, List.cons_append] at hqueue hall
    rw [receive_fresh hhead hnew]
    have hpop : all = (popped ++ [packet]) ++ (packets ++ toCome) := by
      rw [hall, List.append_assoc, List.singleton_append]
    have hlength' : (popped ++ [packet]).length =
        (connection.firstDifferentials ++ [differential]).length := by simp [hlength]
    cases held with
    | nil =>
      obtain ⟨rfl, hrest⟩ := List.cons.inj hqueue
      have hgroup' : connection.downloadGroup ≠ [] := by simp [hgroup]
      rw [onReceive_first_end hcomplete hflag hgroup']
      refine .waiting (popped ++ [packet]) packets [] started kept (packet.take differential)
        hlength' ?_ ?_ ?_ hstarted hpassed hkept ?_ (Nat.succ_ne_zero _) hflag ?_ hgot hprocessed
        ?_ ?_
      · rw [hpop, List.append_nil]
      · simp [pop, hgroup]
      · intro p hp
        rw [List.append_nil, hrest] at hp
        exact hlater p hp
      · rw [ReplicaPacket.isDownloadComplete_take]
        exact hcomplete
      · simp
      · refine (onArrival_append_none hlength
          (update_take_none (update_of_complete hcomplete))).trans (hdue.trans ?_)
        simp
      · rw [unharmed_cons_iff hhead]
        simp [hfine, hcomplete, hflag, hgroup', hnew]
    | cons first held =>
      obtain ⟨rfl, hrest⟩ := List.cons.inj hqueue
      have hplain := hheld _ (List.mem_cons_self ..)
      rw [onReceive_held hplain hflag]
      have hunharmed : settings.Unharmed connection (.receive differential) :=
        unharmed_fresh hhead hnew hplain.2
      by_cases hsome : (settings.update packet).isSome = true
      · rw [if_pos hsome]
        refine .holding (popped ++ [packet]) held complete later started
          (kept ++ [packet.take differential]) hlength' hpop hrest
          (fun p hp => hheld p (List.mem_cons_of_mem _ hp)) hcomplete hlater hflag ?_ hstarted
          hpassed ?_ hgot hprocessed ?_ ⟨hfine, hunharmed⟩
        · simp [hgroup]
        · intro p hp
          rcases List.mem_append.mp hp with hp | hp
          · exact hkept p hp
          · rw [List.mem_singleton.mp hp]
            exact kept_take hplain hsome
        · refine (onArrival_append hlength packet differential).trans ?_
          rw [hdue, List.filterMap_append]
          cases hupdate : settings.update (packet.take differential) with
          | none => simp [hupdate]
          | some update => simp [hupdate]
      · have hnone : settings.update packet = none := by simpa using hsome
        rw [if_neg hsome, List.append_nil]
        exact .holding (popped ++ [packet]) held complete later started kept hlength' hpop hrest
          (fun p hp => hheld p (List.mem_cons_of_mem _ hp)) hcomplete hlater hflag hgroup hstarted
          hpassed hkept hgot hprocessed
          ((onArrival_append_none hlength (update_take_none hnone)).trans hdue)
          ⟨hfine, hunharmed⟩

theorem filterMap_update_singleton (settings : ConnectionSettings) (packet : ReplicaPacket) :
    [packet].filterMap settings.update = (settings.update packet).toList := by
  cases h : settings.update packet with
  | none => simp [h]
  | some update => simp [h]

theorem stage_waiting {popped front behind kept : List ReplicaPacket}
    {started complete : ReplicaPacket} (hfresh : ∀ p ∈ all, p.passes = 0)
    (hlength : popped.length = connection.firstDifferentials.length)
    (hall : all = popped ++ (front ++ behind ++ toCome))
    (hqueue : connection.packetReturnQueue = front ++ started :: (kept ++ complete :: behind))
    (hlater : ∀ p ∈ front ++ behind ++ toCome, settings.Plain p)
    (hstarted : started.isDownloadStarted settings.worldId = true) (hpassed : started.passes ≠ 0)
    (hkept : ∀ p ∈ kept, settings.Kept p)
    (hcomplete : complete.isDownloadComplete settings.worldId = true)
    (hcompletePassed : complete.passes ≠ 0)
    (hflag : connection.groupConstructionAndSerialize = true)
    (hover : ∀ p ∈ connection.downloadGroup, settings.Kept p)
    (hgot : connection.gotDownloadComplete = false) (hprocessed : connection.processed = [])
    (hdue : settings.onArrival popped connection.firstDifferentials =
      kept.filterMap settings.update ++ connection.downloadGroup.filterMap settings.update)
    (hfine : fine ↔ connection.downloadGroup = [] ∧ ∀ p ∈ front, settings.update p = none) :
    Stage settings all (connection.receive settings differential) toCome
      (fine ∧ settings.Unharmed connection (.receive differential)) := by
  cases front with
  | nil =>
    have hnone : settings.update started = none := update_of_started hstarted
    rw [receive_again hqueue hpassed, onReceive_second_start hstarted hflag]
    refine .returning popped behind kept complete [] hlength hall rfl hlater hkept hcomplete
      hcompletePassed rfl hover hgot (by simp [pop, hprocessed]) hdue ?_
    rw [unharmed_cons_iff hqueue, ReplicaPacket.not_complete_of_started hstarted, hnone, hfine]
    simp [pop, hprocessed]
  | cons packet front =>
    have hnew : packet.passes = 0 := hfresh packet (by rw [hall]; simp)
    have hplain : settings.Plain packet := hlater packet (by simp)
    have hlength' : (popped ++ [packet]).length =
        (connection.firstDifferentials ++ [differential]).length := by simp [hlength]
    have hunharmed : settings.Unharmed connection (.receive differential) :=
      unharmed_fresh hqueue hnew hplain.2
    rw [receive_fresh hqueue hnew, onReceive_held hplain hflag]
    refine .waiting (popped ++ [packet]) front behind started kept complete hlength' ?_ rfl
      (fun p hp => hlater p (List.mem_cons_of_mem _ hp)) hstarted hpassed hkept hcomplete
      hcompletePassed hflag ?_ hgot hprocessed ?_ ?_
    · rw [hall]
      simp
    · intro p hp
      rcases List.mem_append.mp hp with hp | hp
      · exact hover p hp
      · by_cases hsome : (settings.update packet).isSome = true
        · rw [if_pos hsome, List.mem_singleton] at hp
          rw [hp]
          exact kept_take hplain hsome
        · rw [if_neg hsome] at hp
          exact absurd hp (List.not_mem_nil)
    · refine (onArrival_append hlength packet differential).trans ?_
      rw [hdue, List.filterMap_append, ← List.append_assoc]
      congr 1
      by_cases hsome : (settings.update packet).isSome = true
      · rw [if_pos hsome, filterMap_update_singleton]
      · rw [if_neg hsome, update_take_none (by simpa using hsome)]
        rfl
    · by_cases hsome : (settings.update packet).isSome = true
      · have hupdate : settings.update packet ≠ none := by
          intro hnone
          simp [hnone] at hsome
        simp [hfine, hsome, hupdate]
      · have hnone : settings.update packet = none := by simpa using hsome
        simp [hfine, hnone, hunharmed]

theorem stage_returning {popped behind kept : List ReplicaPacket} {complete : ReplicaPacket}
    {due : List ReplicaUpdate}
    (hlength : popped.length = connection.firstDifferentials.length)
    (hall : all = popped ++ (behind ++ toCome))
    (hqueue : connection.packetReturnQueue = kept ++ complete :: behind)
    (hlater : ∀ p ∈ behind ++ toCome, settings.Plain p) (hkept : ∀ p ∈ kept, settings.Kept p)
    (hcomplete : complete.isDownloadComplete settings.worldId = true)
    (hcompletePassed : complete.passes ≠ 0)
    (hflag : connection.groupConstructionAndSerialize = false)
    (hover : ∀ p ∈ connection.downloadGroup, settings.Kept p)
    (hgot : connection.gotDownloadComplete = false)
    (hdueLength : connection.processed.length = due.length)
    (hdue : settings.onArrival popped connection.firstDifferentials =
      due ++ kept.filterMap settings.update ++ connection.downloadGroup.filterMap settings.update)
    (hfine : fine ↔ connection.downloadGroup = [] ∧ connection.processed = due) :
    Stage settings all (connection.receive settings differential) toCome
      (fine ∧ settings.Unharmed connection (.receive differential)) := by
  cases kept with
  | nil =>
    rw [receive_again hqueue hcompletePassed, onReceive_second_end hcomplete hflag]
    refine .done popped connection.processed due [] hlength hall hlater hflag hover rfl ?_ ?_ ?_
    · simp [pop]
    · refine hdue.trans ?_
      simp [pop]
    · rw [unharmed_cons_iff hqueue, update_of_complete hcomplete, hfine]
      simp [pop, hflag]
  | cons packet kept =>
    obtain ⟨hplain, hsome, original, first, rfl⟩ := hkept packet (List.mem_cons_self ..)
    obtain ⟨update, hupdate⟩ := Option.isSome_iff_exists.mp hsome
    obtain ⟨again, hagain⟩ : ∃ again, settings.update ((original.take first).take differential) =
        some again := by
      rw [← Option.isSome_iff_exists, update_isSome_take, hsome]
    have hsame : again = update ↔ (Timestamped original.data → differential = 0) := by
      rw [← update_take_take (by rw [← update_isSome_take, hsome]), hagain, hupdate,
        Option.some.injEq]
    have hunharmed : settings.Unharmed connection (.receive differential) ↔ again = update := by
      rw [unharmed_cons_iff hqueue, hplain.2, hupdate, hsame, ← timestamped_shift first]
      simp [ReplicaPacket.take]
    rw [receive_again hqueue (Nat.succ_ne_zero _), onReceive_not_held hplain hflag, hagain]
    refine .returning popped behind kept complete (due ++ [update]) hlength hall rfl hlater
      (fun p hp => hkept p (List.mem_cons_of_mem _ hp)) hcomplete hcompletePassed hflag hover hgot
      ?_ ?_ ?_
    · simp [hdueLength]
    · refine hdue.trans ?_
      simp [pop, hupdate]
    · rw [hfine, hunharmed]
      constructor
      · rintro ⟨⟨hgroup, hprocessed⟩, heq⟩
        refine ⟨hgroup, ?_⟩
        rw [hprocessed, heq]
        rfl
      · rintro ⟨hgroup, hprocessed⟩
        obtain ⟨hprocessed, heq⟩ := List.append_inj hprocessed hdueLength
        exact ⟨⟨hgroup, hprocessed⟩, List.singleton_injective heq⟩

theorem stage_done {popped : List ReplicaPacket} {processed due after : List ReplicaUpdate}
    (hfresh : ∀ p ∈ all, p.passes = 0)
    (hlength : popped.length = connection.firstDifferentials.length)
    (hall : all = popped ++ (connection.packetReturnQueue ++ toCome))
    (hlater : ∀ p ∈ connection.packetReturnQueue ++ toCome, settings.Plain p)
    (hflag : connection.groupConstructionAndSerialize = false)
    (hover : ∀ p ∈ connection.downloadGroup, settings.Kept p)
    (hgot : connection.gotDownloadComplete = true)
    (hprocessed : connection.processed = processed ++ after)
    (hdue : settings.onArrival popped connection.firstDifferentials =
      due ++ connection.downloadGroup.filterMap settings.update ++ after)
    (hfine : fine ↔ connection.downloadGroup = [] ∧ processed = due) :
    Stage settings all (connection.receive settings differential) toCome
      (fine ∧ settings.Unharmed connection (.receive differential)) := by
  cases hhead : connection.packetReturnQueue with
  | nil =>
    rw [receive_nil hhead]
    refine .done popped processed due after hlength hall hlater hflag hover hgot hprocessed hdue ?_
    rw [← hfine]
    exact and_iff_left (unharmed_nil hhead)
  | cons packet packets =>
    have hnew : packet.passes = 0 := hfresh packet (by rw [hall, hhead]; simp)
    have hplain : settings.Plain packet := hlater packet (by rw [hhead]; simp)
    rw [receive_fresh hhead hnew, onReceive_not_held hplain hflag]
    refine .done (popped ++ [packet]) processed due
      (after ++ (settings.update (packet.take differential)).toList) (by simp [pop, hlength]) ?_ ?_
      hflag hover hgot ?_ ?_ ?_
    · rw [hall, hhead]
      simp [pop]
    · intro p hp
      exact hlater p (by rw [hhead]; exact List.mem_cons_of_mem _ hp)
    · simp [hprocessed]
    · refine (onArrival_append hlength packet differential).trans ?_
      rw [hdue, List.append_assoc]
      rfl
    · exact (and_iff_left (unharmed_fresh hhead hnew hplain.2)).trans hfine

theorem stage_receive (hgrouped : settings.queryGroupDownloadMessages = true)
    (hfresh : ∀ p ∈ all, p.passes = 0) (h : Stage settings all connection toCome fine)
    (differential : UInt64) :
    Stage settings all (connection.receive settings differential) toCome
      (fine ∧ settings.Unharmed connection (.receive differential)) := by
  cases h with
  | before popped others started held complete later hlength hall hqueue hothers hstarted hheld
      hcomplete hlater hflag hgroup hgot hprocessed hdue hfine =>
    exact stage_before hgrouped hfresh hlength hall hqueue hothers hstarted hheld hcomplete hlater
      hflag hgroup hgot hprocessed hdue hfine
  | holding popped held complete later started kept hlength hall hqueue hheld hcomplete hlater
      hflag hgroup hstarted hpassed hkept hgot hprocessed hdue hfine =>
    exact stage_holding hfresh hlength hall hqueue hheld hcomplete hlater hflag hgroup hstarted
      hpassed hkept hgot hprocessed hdue hfine
  | waiting popped front behind started kept complete hlength hall hqueue hlater hstarted hpassed
      hkept hcomplete hcompletePassed hflag hover hgot hprocessed hdue hfine =>
    exact stage_waiting hfresh hlength hall hqueue hlater hstarted hpassed hkept hcomplete
      hcompletePassed hflag hover hgot hprocessed hdue hfine
  | returning popped behind kept complete due hlength hall hqueue hlater hkept hcomplete
      hcompletePassed hflag hover hgot hdueLength hdue hfine =>
    exact stage_returning hlength hall hqueue hlater hkept hcomplete hcompletePassed hflag hover
      hgot hdueLength hdue hfine
  | done popped processed due after hlength hall hlater hflag hover hgot hprocessed hdue hfine =>
    exact stage_done hfresh hlength hall hlater hflag hover hgot hprocessed hdue hfine

theorem stage_arrive {packet : ReplicaPacket}
    (h : Stage settings all connection (packet :: toCome) fine) :
    Stage settings all
      { connection with packetReturnQueue := connection.packetReturnQueue ++ [packet] } toCome
      fine := by
  cases h with
  | before popped others started held complete later hlength hall hqueue hothers hstarted hheld
      hcomplete hlater hflag hgroup hgot hprocessed hdue hfine =>
    refine .before popped others started held complete later hlength ?_ ?_ hothers hstarted hheld
      hcomplete hlater hflag hgroup hgot hprocessed hdue hfine
    · simp [hall]
    · simp [← hqueue]
  | holding popped held complete later started kept hlength hall hqueue hheld hcomplete hlater
      hflag hgroup hstarted hpassed hkept hgot hprocessed hdue hfine =>
    refine .holding popped held complete later started kept hlength ?_ ?_ hheld hcomplete hlater
      hflag hgroup hstarted hpassed hkept hgot hprocessed hdue hfine
    · simp [hall]
    · simp [← hqueue]
  | waiting popped front behind started kept complete hlength hall hqueue hlater hstarted hpassed
      hkept hcomplete hcompletePassed hflag hover hgot hprocessed hdue hfine =>
    refine .waiting popped front (behind ++ [packet]) started kept complete hlength ?_ ?_ ?_
      hstarted hpassed hkept hcomplete hcompletePassed hflag hover hgot hprocessed hdue hfine
    · simp [hall]
    · simp [hqueue]
    · intro p hp
      exact hlater p (by simpa using hp)
  | returning popped behind kept complete due hlength hall hqueue hlater hkept hcomplete
      hcompletePassed hflag hover hgot hdueLength hdue hfine =>
    refine .returning popped (behind ++ [packet]) kept complete due hlength ?_ ?_ ?_ hkept
      hcomplete hcompletePassed hflag hover hgot hdueLength hdue hfine
    · simp [hall]
    · simp [hqueue]
    · intro p hp
      exact hlater p (by simpa using hp)
  | done popped processed due after hlength hall hlater hflag hover hgot hprocessed hdue hfine =>
    refine .done popped processed due after hlength ?_ ?_ hflag hover hgot hprocessed hdue hfine
    · simp [hall]
    · intro p hp
      exact hlater p (by simpa using hp)

/-! ### Whole runs -/

theorem passes_arrivals {inputs : List ReplicaInput} {packet : ReplicaPacket}
    (h : packet ∈ arrivals inputs) : packet.passes = 0 := by
  obtain ⟨input, -, heq⟩ := List.mem_filterMap.mp h
  cases input with
  | arrive data wasGeneratedLocally =>
    rw [← Option.some.inj heq]
  | receive differential => exact absurd heq (by simp)

theorem stage_run (hgrouped : settings.queryGroupDownloadMessages = true)
    {inputs : List ReplicaInput} (hdownload : settings.IsDownload (arrivals inputs)) :
    ∀ pre post, inputs = pre ++ post →
      Stage settings (arrivals inputs) (run settings pre) (arrivals post)
        (Transition.Along (step settings) settings.Unharmed new pre) := by
  intro pre
  induction pre using List.reverseRecOn with
  | nil =>
    intro post heq
    obtain ⟨others, started, held, complete, later, hall, hothers, hstarted, hheld, hcomplete,
      hlater⟩ := hdownload
    obtain rfl : inputs = post := heq
    refine .before [] others started held complete later rfl rfl ?_ hothers hstarted hheld
      hcomplete hlater rfl rfl rfl rfl rfl Transition.along_nil
    rw [hall]
    simp [run, new]
  | append_singleton pre input ih =>
    intro post heq
    have hstage := ih (input :: post) (by rw [heq]; simp)
    have hrun : run settings (pre ++ [input]) = step settings (run settings pre) input := by
      rw [run, List.foldl_append]
      rfl
    rw [hrun]
    refine Stage.congr ?_ Transition.along_concat_iff.symm
    cases input with
    | arrive data wasGeneratedLocally =>
      exact (stage_arrive hstage).congr (and_iff_left trivial).symm
    | receive differential =>
      exact stage_receive hgrouped (fun p hp => passes_arrivals hp) hstage differential

theorem Stage.downloadGroup_eq_nil (h : Stage settings all connection toCome fine)
    (hgot : connection.gotDownloadComplete = true) (hfine : fine) :
    connection.downloadGroup = [] := by
  cases h with
  | before _ _ _ _ _ _ _ _ _ _ _ _ _ _ _ hgroup => exact hgroup
  | holding _ _ _ _ _ _ _ _ _ _ _ _ _ _ _ _ _ hnot => simp [hgot] at hnot
  | waiting _ _ _ _ _ _ _ _ _ _ _ _ _ _ _ _ _ _ _ _ hiff => exact (hiff.mp hfine).1
  | returning _ _ _ _ _ _ _ _ _ _ _ _ _ _ _ _ _ hiff => exact (hiff.mp hfine).1
  | done _ _ _ _ _ _ _ _ _ _ _ _ hiff => exact (hiff.mp hfine).1

theorem Stage.over (h : Stage settings all connection [] fine)
    (hempty : connection.packetReturnQueue = []) :
    connection.gotDownloadComplete = true ∧
      (connection.processed = settings.onArrival all connection.firstDifferentials ∧
        connection.downloadGroup = [] ↔ fine) := by
  cases h with
  | before _ others _ _ _ _ _ _ hqueue => simp [hempty] at hqueue
  | holding _ held _ _ _ _ _ _ hqueue => simp [hempty] at hqueue
  | waiting _ _ _ _ _ _ _ _ hqueue => simp [hempty] at hqueue
  | returning _ _ _ _ _ _ _ hqueue => simp [hempty] at hqueue
  | done popped processed due after hlength hall hlater hflag hover hgot hprocessed hdue hfine =>
    obtain rfl : all = popped := by rw [hall, hempty]; simp
    refine ⟨hgot, ?_⟩
    rw [hfine, hdue, hprocessed]
    constructor
    · rintro ⟨heq, hgroup⟩
      rw [hgroup, List.filterMap_nil, List.append_nil] at heq
      exact ⟨hgroup, List.append_cancel_right heq⟩
    · rintro ⟨hgroup, heq⟩
      rw [hgroup, heq, List.filterMap_nil, List.append_nil]
      exact ⟨rfl, rfl⟩

/-- What the objects get of a grouped download, and of the packets behind it, is what they would
have got of the packets on arrival, and nothing is held after its end, just when no packet for the
objects waited in the queue behind the end of the download and no timestamp of a held packet was
shifted again. -/
theorem grouped_download_iff {inputs : List ReplicaInput}
    (hgrouped : settings.queryGroupDownloadMessages = true)
    (hdownload : settings.IsDownload (arrivals inputs))
    (hempty : (run settings inputs).packetReturnQueue = []) :
    ((run settings inputs).processed =
        settings.onArrival (arrivals inputs) (run settings inputs).firstDifferentials ∧
      ∀ pre post, inputs = pre ++ post → (run settings pre).gotDownloadComplete = true →
        (run settings pre).downloadGroup = []) ↔
      Transition.Along (step settings) settings.Unharmed new inputs := by
  have hstage := stage_run hgrouped hdownload
  obtain ⟨hgot, hover⟩ := (hstage inputs [] (by simp)).over hempty
  rw [← hover]
  constructor
  · rintro ⟨hprocessed, hgroup⟩
    exact ⟨hprocessed, hgroup inputs [] (by simp) hgot⟩
  · rintro ⟨hprocessed, hgroup⟩
    refine ⟨hprocessed, fun pre post heq hcomplete => ?_⟩
    have halong := hover.mp ⟨hprocessed, hgroup⟩
    refine (hstage pre post heq).downloadGroup_eq_nil hcomplete ?_
    intro pre' input post' hpre
    exact halong pre' input (post' ++ post) (by rw [heq, hpre]; simp)

def grouping : ConnectionSettings := ⟨0, .none, false, true⟩

/-- The start of a download, a construction, a serialization with the timestamp 1000, the end of
the download and a later serialization. -/
def shortDownload : List ReplicaPacket :=
  [⟨[42, 0], false, 0⟩, ⟨[39, 0, 1], false, 0⟩, ⟨[27] ++ toBytes 8 1000 ++ [41, 0, 2], false, 0⟩,
    ⟨[43, 0], false, 0⟩, ⟨[41, 0, 3], false, 0⟩]

theorem isDownload_shortDownload : grouping.IsDownload shortDownload := by
  refine ⟨[], ⟨[42, 0], false, 0⟩,
    [⟨[39, 0, 1], false, 0⟩, ⟨[27] ++ toBytes 8 1000 ++ [41, 0, 2], false, 0⟩],
    ⟨[43, 0], false, 0⟩, [⟨[41, 0, 3], false, 0⟩], rfl, by simp, rfl, ?_, rfl, ?_⟩
  · intro p hp
    rcases List.mem_cons.mp hp with rfl | hp
    · exact ⟨rfl, rfl⟩
    · rw [List.mem_singleton.mp hp]
      exact ⟨rfl, rfl⟩
  · intro p hp
    rw [List.mem_singleton.mp hp]
    exact ⟨rfl, rfl⟩

def arrive (packets : List ReplicaPacket) : List ReplicaInput :=
  packets.map fun packet => .arrive packet.data packet.wasGeneratedLocally

/-- The later packet comes in before or after the end of the download is taken from the queue for
the first time, and from then on the clock differential is as given. -/
def waitingRun : List ReplicaInput := arrive shortDownload ++ List.replicate 10 (.receive 0)

def emptyRun (differential : UInt64) : List ReplicaInput :=
  arrive (shortDownload.take 4) ++ List.replicate 4 (.receive 5) ++
    List.replicate 4 (.receive differential) ++ arrive (shortDownload.drop 4) ++ [.receive 0]

theorem emptyRun_unharmed :
    (run grouping (emptyRun 0)).processed =
        grouping.onArrival (arrivals (emptyRun 0)) (run grouping (emptyRun 0)).firstDifferentials ∧
      ∀ pre post, emptyRun 0 = pre ++ post → (run grouping pre).gotDownloadComplete = true →
        (run grouping pre).downloadGroup = [] :=
  (grouped_download_iff rfl isDownload_shortDownload rfl).mpr (by decide +kernel)

/-- Where the later packet waits behind the end of the download it is held for good; and a clock
differential of five shifts the timestamp of the download's serialization twice. -/
theorem grouped_download_harmed :
    (grouping.IsDownload (arrivals waitingRun) ∧
      (run grouping waitingRun).packetReturnQueue.length = 0 ∧
      (run grouping waitingRun).processed ≠
        grouping.onArrival (arrivals waitingRun) (run grouping waitingRun).firstDifferentials ∧
      (run grouping waitingRun).gotDownloadComplete = true ∧
      (run grouping waitingRun).downloadGroup.length = 1) ∧
    grouping.IsDownload (arrivals (emptyRun 5)) ∧
      (run grouping (emptyRun 5)).packetReturnQueue.length = 0 ∧
      (run grouping (emptyRun 5)).processed ≠
        grouping.onArrival (arrivals (emptyRun 5)) (run grouping (emptyRun 5)).firstDifferentials :=
  ⟨⟨isDownload_shortDownload, by decide +kernel⟩, isDownload_shortDownload, by decide +kernel⟩

end ReplicaConnection

end SLikeNet
