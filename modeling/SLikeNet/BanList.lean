import Mathlib.Algebra.Group.Nat.Defs
import SLikeNet.Library.IndexChains
import SLikeNet.Library.Transition

/-! The ban list: patterns of addresses with the times on the 32-bit clock at which they end. -/

namespace SLikeNet

/-- A string has its characters in front of the terminator; a null pointer is treated like the
empty string everywhere. A timeout of 0 is a permanent ban. -/
structure BanStruct where
  ip : List UInt8
  timeout : UInt32
deriving DecidableEq

/-- A call at a time of the clock that does not wrap. -/
inductive BanCommand
  | addToBanList (ip : List UInt8) (milliseconds : ℕ)
  | removeFromBanList (ip : List UInt8)
  | clearBanList
  | isBanned (ip : List UInt8)

/-- Patterns and addresses of 1 to 15 characters, and durations below `2 ^ 31`. -/
def BanCommand.Valid : BanCommand → Prop
  | .addToBanList ip milliseconds => ip ≠ [] ∧ ip.length ≤ 15 ∧ milliseconds < 2 ^ 31
  | .removeFromBanList ip | .isBanned ip => ip ≠ [] ∧ ip.length ≤ 15
  | .clearBanList => True

structure BanCall where
  time : ℕ
  command : BanCommand

def banWildcard : UInt8 := 42

namespace BanList

/-- `GetTimeMS`, which has 32 bits. -/
def getTimeMS (time : ℕ) : UInt32 := UInt32.ofNat time

def isRefused (ip : List UInt8) : Bool := ip.isEmpty || decide (15 < ip.length)

def timeoutOf (time milliseconds : ℕ) : UInt32 :=
  if UInt32.ofNat milliseconds = 0 then 0 else getTimeMS time + UInt32.ofNat milliseconds

def find (banList : List BanStruct) (ip : List UInt8) : Option ℕ :=
  banList.findIdx? fun ban => decide (ip = ban.ip)

def addToBanList (banList : List BanStruct) (ip : List UInt8) (milliseconds time : ℕ) :
    List BanStruct :=
  if isRefused ip then banList
  else
    match find banList ip with
    | some index =>
      banList.modify index fun ban => { ban with timeout := timeoutOf time milliseconds }
    | none => banList ++ [⟨ip, timeoutOf time milliseconds⟩]

def removeFromBanList (banList : List BanStruct) (ip : List UInt8) : List BanStruct :=
  if isRefused ip then banList
  else
    match find banList ip with
    | some index => banList.swapRemove index
    | none => banList

/-- The characters of a ban and of an address side by side. -/
def matchesIP : List UInt8 → List UInt8 → Bool
  | [], [] => true
  | [], _ :: _ => false
  | _ :: _, [] => false
  -- the wildcard counts only where the characters differ
  | b :: ban, c :: ip => if b = c then matchesIP ban ip else decide (b = banWildcard)

def isExpired (time : UInt32) (ban : BanStruct) : Bool :=
  decide (0 < ban.timeout) && decide (ban.timeout < time)

/-- The loop of `IsBanned` over the bans from `banListIndex` on: an expired one gives its place to
the last one. -/
def scan (ip : List UInt8) (time : UInt32) : List BanStruct → Bool × List BanStruct
  | [] => (false, [])
  | ban :: banList =>
    if isExpired time ban then scan ip time ((ban :: banList).swapRemove 0)
    else if matchesIP ban.ip ip then (true, ban :: banList)
    else
      let rest := scan ip time banList
      (rest.1, ban :: rest.2)
termination_by banList => banList.length
decreasing_by
  · rw [(List.swapRemove_perm (Nat.zero_lt_succ banList.length)).length_eq]
    exact Nat.lt_succ_self _
  · exact Nat.lt_succ_self _

def isBanned (banList : List BanStruct) (ip : List UInt8) (time : ℕ) : Bool × List BanStruct :=
  if isRefused ip then (false, banList) else scan ip (getTimeMS time) banList

def step (banList : List BanStruct) (call : BanCall) : List BanStruct :=
  match call.command with
  | .addToBanList ip milliseconds => addToBanList banList ip milliseconds call.time
  | .removeFromBanList ip => removeFromBanList banList ip
  | .clearBanList => []
  | .isBanned ip => (isBanned banList ip call.time).2

def run (calls : List BanCall) : List BanStruct := calls.foldl step []

/-! ### What is meant -/

/-- When each pattern was last added, and for how long, unless it was removed since. -/
abbrev Register := List UInt8 → Option (ℕ × ℕ)

def register (added : Register) (call : BanCall) : Register :=
  match call.command with
  | .addToBanList ip milliseconds => Function.update added ip (some (call.time, milliseconds))
  | .removeFromBanList ip => Function.update added ip none
  | .clearBanList => fun _ => none
  | .isBanned _ => added

def registered (calls : List BanCall) : Register := calls.foldl register fun _ => none

/-- The pattern is the address, or a proper beginning of it and a wildcard. -/
def Covers (pattern ip : List UInt8) : Prop :=
  pattern = ip ∨ ∃ first rest, pattern = first ++ banWildcard :: rest ∧ first <+: ip ∧ first ≠ ip

/-- The ban is permanent, or the time has not passed its end. -/
def Stands (time : ℕ) (ban : ℕ × ℕ) : Prop := ban.2 = 0 ∨ time ≤ ban.1 + ban.2

def BansAsMeant (calls : List BanCall) : Prop :=
  ∀ before time ip after, calls = before ++ ⟨time, .isBanned ip⟩ :: after →
    ((isBanned (run before) ip time).1 = true ↔
      ∃ pattern ban, registered before pattern = some ban ∧ Stands time ban ∧ Covers pattern ip)

/-! ### The condition -/

/-- The clock tells whether the ban is over: before its end the clock does not show more than the
end, nor less afterwards, and the end is not 0 on it. -/
def ClockTells (time : ℕ) (ban : ℕ × ℕ) : Prop :=
  ban.2 ≠ 0 →
    if time ≤ ban.1 + ban.2 then
      (ban.1 + ban.2) % 2 ^ 32 = 0 ∨ time % 2 ^ 32 ≤ (ban.1 + ban.2) % 2 ^ 32
    else (ban.1 + ban.2) % 2 ^ 32 ≠ 0 ∧ (ban.1 + ban.2) % 2 ^ 32 < time % 2 ^ 32

instance (time : ℕ) (ban : ℕ × ℕ) : Decidable (ClockTells time ban) :=
  inferInstanceAs (Decidable (_ → _))

/-- The address has a wildcard of its own where the pattern has one. -/
def SharesWildcard (pattern ip : List UInt8) : Prop :=
  ∃ first rest rest', pattern = first ++ banWildcard :: rest ∧ ip = first ++ banWildcard :: rest'

/-- When an address is looked up, the clock tells of every ban on the list whether it is over, and
none of them shares a wildcard with the address. -/
def Checkable (calls : List BanCall) : Prop :=
  ∀ before time ip after, calls = before ++ ⟨time, .isBanned ip⟩ :: after →
    ∀ entry ∈ run before, (∀ ban, registered before entry.ip = some ban → ClockTells time ban) ∧
      (entry.ip ≠ ip → ¬ SharesWildcard entry.ip ip)

/-! ### One pattern -/

theorem SharesWildcard.cons {c : UInt8} {pattern ip : List UInt8} (h : SharesWildcard pattern ip) :
    SharesWildcard (c :: pattern) (c :: ip) := by
  obtain ⟨first, rest, rest', rfl, rfl⟩ := h
  exact ⟨c :: first, rest, rest', rfl, rfl⟩

theorem covers_cons {c : UInt8} {pattern ip : List UInt8} (h : Covers pattern ip) :
    Covers (c :: pattern) (c :: ip) := by
  rcases h with rfl | ⟨first, rest, rfl, hprefix, hproper⟩
  · exact Or.inl rfl
  · refine Or.inr ⟨c :: first, rest, rfl, List.cons_prefix_cons.mpr ⟨rfl, hprefix⟩, ?_⟩
    exact fun heq => hproper (List.cons.inj heq).2

theorem covers_cons_iff {c : UInt8} {pattern ip : List UInt8}
    (h : pattern ≠ ip → ¬ SharesWildcard (c :: pattern) (c :: ip)) :
    Covers (c :: pattern) (c :: ip) ↔ Covers pattern ip := by
  refine ⟨?_, covers_cons⟩
  rintro (heq | ⟨first, rest, heq, hprefix, hproper⟩)
  · exact Or.inl (List.cons.inj heq).2
  · cases first with
    | nil =>
      -- the pattern has its wildcard here, and so has the address
      obtain ⟨rfl, rfl⟩ := List.cons.inj heq
      by_cases hsame : pattern = ip
      · exact Or.inl hsame
      · exact absurd ⟨[], pattern, ip, rfl, rfl⟩ (h hsame)
    | cons d first =>
      obtain ⟨rfl, rfl⟩ := List.cons.inj heq
      refine Or.inr ⟨first, rest, rfl, (List.cons_prefix_cons.mp hprefix).2, ?_⟩
      exact fun heq => hproper (congrArg (c :: ·) heq)

theorem covers_cons_iff_of_ne {b c : UInt8} {pattern ip : List UInt8} (hne : b ≠ c) :
    Covers (b :: pattern) (c :: ip) ↔ b = banWildcard := by
  constructor
  · rintro (heq | ⟨first, rest, heq, hprefix, -⟩)
    · exact absurd (List.cons.inj heq).1 hne
    · cases first with
      | nil => exact (List.cons.inj heq).1
      | cons d first =>
        obtain rfl := (List.cons.inj heq).1
        exact absurd (List.cons_prefix_cons.mp hprefix).1 hne
  · rintro rfl
    exact Or.inr ⟨[], pattern, rfl, List.nil_prefix, nofun⟩

theorem covers_nil_left (ip : List UInt8) : Covers [] ip ↔ ip = [] := by
  refine ⟨?_, fun heq => Or.inl heq.symm⟩
  rintro (heq | ⟨first, rest, heq, -⟩)
  · exact heq.symm
  · exact absurd heq (by simp)

theorem covers_nil_right (pattern : List UInt8) : Covers pattern [] ↔ pattern = [] := by
  refine ⟨?_, Or.inl⟩
  rintro (heq | ⟨first, rest, -, hprefix, hproper⟩)
  · exact heq
  · exact absurd (List.prefix_nil.mp hprefix) hproper

theorem matchesIP_iff {pattern ip : List UInt8} (h : pattern ≠ ip → ¬ SharesWildcard pattern ip) :
    matchesIP pattern ip = true ↔ Covers pattern ip := by
  induction pattern generalizing ip with
  | nil =>
    rw [covers_nil_left]
    cases ip with
    | nil => exact iff_of_true rfl rfl
    | cons c ip => exact iff_of_false Bool.false_ne_true nofun
  | cons b pattern ih =>
    cases ip with
    | nil =>
      rw [covers_nil_right]
      exact iff_of_false Bool.false_ne_true nofun
    | cons c ip =>
      rw [matchesIP]
      by_cases hbc : b = c
      · subst hbc
        have hshared : pattern ≠ ip → ¬ SharesWildcard (b :: pattern) (b :: ip) := fun hne =>
          h fun heq => hne (List.cons.inj heq).2
        rw [if_pos rfl, covers_cons_iff hshared]
        exact ih fun hne hshares => hshared hne hshares.cons
      · rw [if_neg hbc, decide_eq_true_eq, covers_cons_iff_of_ne hbc]

theorem timeoutOf_toNat {time milliseconds : ℕ} (h : milliseconds < 2 ^ 31) :
    (timeoutOf time milliseconds).toNat =
      if milliseconds = 0 then 0 else (time + milliseconds) % 2 ^ 32 := by
  have hzero : UInt32.ofNat milliseconds = 0 ↔ milliseconds = 0 := by
    rw [← UInt32.toNat_inj, UInt32.toNat_ofNat']
    show milliseconds % 2 ^ 32 = 0 ↔ _
    omega
  rw [timeoutOf]
  by_cases hnone : milliseconds = 0
  · rw [if_pos hnone, if_pos (hzero.mpr hnone)]
    rfl
  · rw [if_neg hnone, if_neg (hzero.not.mpr hnone), UInt32.toNat_add, getTimeMS,
      UInt32.toNat_ofNat', UInt32.toNat_ofNat', ← Nat.add_mod]

theorem isExpired_iff {time : ℕ} {ban : ℕ × ℕ} {ip : List UInt8} (hms : ban.2 < 2 ^ 31)
    (h : ClockTells time ban) :
    isExpired (getTimeMS time) ⟨ip, timeoutOf ban.1 ban.2⟩ = true ↔ ¬ Stands time ban := by
  rw [isExpired, Bool.and_eq_true, decide_eq_true_eq, decide_eq_true_eq, UInt32.lt_iff_toNat_lt,
    UInt32.lt_iff_toNat_lt, timeoutOf_toNat hms, getTimeMS, UInt32.toNat_ofNat', Stands]
  by_cases hnone : ban.2 = 0
  · simp [hnone]
  · have htells := h hnone
    rw [if_neg hnone]
    show 0 < _ ∧ _ ↔ _
    split at htells
    · omega
    · omega

/-! ### One scan -/

theorem swapRemove_zero_perm (ban : BanStruct) (banList : List BanStruct) :
    ((ban :: banList).swapRemove 0).Perm banList :=
  List.swapRemove_perm (Nat.zero_lt_succ banList.length)

theorem scan_iff (ip : List UInt8) (time : UInt32) (banList : List BanStruct) :
    (scan ip time banList).1 = true ↔
      ∃ ban ∈ banList, isExpired time ban = false ∧ matchesIP ban.ip ip = true := by
  fun_induction scan ip time banList with
  | case1 => simp
  | case2 ban banList hexpired ih =>
    simp [ih, (swapRemove_zero_perm ban banList).mem_iff, hexpired]
  | case3 ban banList hexpired hmatches =>
    refine ⟨fun _ => ⟨ban, List.mem_cons_self, by simpa using hexpired, hmatches⟩, fun _ => rfl⟩
  | case4 ban banList hexpired hmatches rest ih =>
    show (scan ip time banList).1 = true ↔ _
    rw [ih]
    simp [hmatches]

theorem scan_subperm (ip : List UInt8) (time : UInt32) (banList : List BanStruct) :
    List.Subperm (scan ip time banList).2 banList := by
  fun_induction scan ip time banList with
  | case1 => exact List.Subperm.refl _
  | case2 ban banList hexpired ih =>
    exact (ih.trans (swapRemove_zero_perm ban banList).subperm).trans
      (List.sublist_cons_self ban banList).subperm
  | case3 => exact List.Subperm.refl _
  | case4 ban banList hexpired hmatches rest ih => exact (List.subperm_cons ban).mpr ih

theorem mem_scan {ip : List UInt8} {time : UInt32} {banList : List BanStruct} {entry : BanStruct}
    (hmem : entry ∈ banList) (hstays : isExpired time entry = false) :
    entry ∈ (scan ip time banList).2 := by
  fun_induction scan ip time banList with
  | case1 => exact hmem
  | case2 ban banList hexpired ih =>
    refine ih ((swapRemove_zero_perm ban banList).mem_iff.mpr ?_)
    rcases List.mem_cons.mp hmem with rfl | hrest
    · rw [hexpired] at hstays
      exact absurd hstays (by decide)
    · exact hrest
  | case3 => exact hmem
  | case4 ban banList hexpired hmatches rest ih =>
    rcases List.mem_cons.mp hmem with rfl | hrest
    · exact List.mem_cons_self
    · exact List.mem_cons_of_mem ban (ih hrest)

/-! ### The list and what was added -/

/-- The list has one entry for each pattern, with the end of the last ban, and it has all that
stand. -/
structure Represents (added : Register) (time : ℕ) (banList : List BanStruct) : Prop where
  nodup : (banList.map BanStruct.ip).Nodup
  listed : ∀ entry ∈ banList, ∃ ban, added entry.ip = some ban ∧ ban.2 < 2 ^ 31 ∧
    entry.timeout = timeoutOf ban.1 ban.2
  standing : ∀ pattern ban, added pattern = some ban → Stands time ban →
    ∃ entry ∈ banList, entry.ip = pattern

variable {added : Register} {banList : List BanStruct} {ip : List UInt8} {time time' : ℕ}

theorem Represents.later (h : Represents added time banList) (hle : time ≤ time') :
    Represents added time' banList where
  nodup := h.nodup
  listed := h.listed
  standing pattern ban hban hstands :=
    h.standing pattern ban hban (hstands.imp_right (Nat.le_trans hle))

theorem find_some {index : ℕ} (h : find banList ip = some index) :
    ∃ entry, banList[index]? = some entry ∧ entry.ip = ip := by
  obtain ⟨hlt, hentry, -⟩ := List.findIdx?_eq_some_iff_getElem.mp h
  exact ⟨banList[index], List.getElem?_eq_getElem hlt, (of_decide_eq_true hentry).symm⟩

theorem find_none (h : find banList ip = none) {entry : BanStruct} (hmem : entry ∈ banList) :
    entry.ip ≠ ip := by
  have hne := List.findIdx?_eq_none_iff.mp h entry hmem
  exact fun heq => of_decide_eq_false hne heq.symm

theorem perm_of_getElem? {index : ℕ} {entry : BanStruct} (h : banList[index]? = some entry) :
    banList.Perm (entry :: banList.eraseIdx index) := by
  obtain ⟨hlt, rfl⟩ := List.getElem?_eq_some_iff.mp h
  exact (List.getElem_cons_eraseIdx_perm hlt).symm

theorem Represents.removed (h : Represents added time banList) {others : List BanStruct}
    {entry : BanStruct} (hperm : banList.Perm (entry :: others)) :
    Represents (Function.update added entry.ip none) time others := by
  have hnodup := (hperm.map BanStruct.ip).nodup_iff.mp h.nodup
  rw [List.map_cons, List.nodup_cons] at hnodup
  have hne : ∀ other ∈ others, other.ip ≠ entry.ip := fun other hmem heq =>
    hnodup.1 (heq ▸ List.mem_map_of_mem hmem)
  refine ⟨hnodup.2, fun other hmem => ?_, fun pattern ban hban hstands => ?_⟩
  · rw [Function.update_of_ne (hne other hmem)]
    exact h.listed other (hperm.mem_iff.mpr (List.mem_cons_of_mem entry hmem))
  · by_cases hpattern : pattern = entry.ip
    · rw [hpattern, Function.update_self] at hban
      exact absurd hban nofun
    · rw [Function.update_of_ne hpattern] at hban
      obtain ⟨other, hmem, rfl⟩ := h.standing pattern ban hban hstands
      rcases List.mem_cons.mp (hperm.mem_iff.mp hmem) with rfl | hother
      · exact absurd rfl hpattern
      · exact ⟨other, hother, rfl⟩

theorem Represents.unlisted (h : Represents added time banList)
    (hne : ∀ entry ∈ banList, entry.ip ≠ ip) :
    Represents (Function.update added ip none) time banList where
  nodup := h.nodup
  listed entry hmem := by
    rw [Function.update_of_ne (hne entry hmem)]
    exact h.listed entry hmem
  standing pattern ban hban hstands := by
    by_cases hpattern : pattern = ip
    · rw [hpattern, Function.update_self] at hban
      exact absurd hban nofun
    · rw [Function.update_of_ne hpattern] at hban
      exact h.standing pattern ban hban hstands

theorem Represents.inserted (h : Represents (Function.update added ip none) time banList)
    {milliseconds start : ℕ} (hms : milliseconds < 2 ^ 31) {banList' : List BanStruct}
    (hperm : banList'.Perm (⟨ip, timeoutOf start milliseconds⟩ :: banList)) :
    Represents (Function.update added ip (some (start, milliseconds))) time banList' := by
  have hne : ∀ entry ∈ banList, entry.ip ≠ ip := by
    intro entry hmem heq
    obtain ⟨ban, hban, -⟩ := h.listed entry hmem
    rw [heq, Function.update_self] at hban
    exact absurd hban nofun
  refine ⟨?_, fun entry hmem => ?_, fun pattern ban hban hstands => ?_⟩
  · rw [(hperm.map BanStruct.ip).nodup_iff, List.map_cons, List.nodup_cons]
    refine ⟨fun hmem => ?_, h.nodup⟩
    obtain ⟨entry, hentry, heq⟩ := List.mem_map.mp hmem
    exact hne entry hentry heq
  · rcases List.mem_cons.mp (hperm.mem_iff.mp hmem) with rfl | hold
    · exact ⟨(start, milliseconds), Function.update_self _ _ _, hms, rfl⟩
    · obtain ⟨ban, hban, hrest⟩ := h.listed entry hold
      rw [Function.update_of_ne (hne entry hold)] at hban ⊢
      exact ⟨ban, hban, hrest⟩
  · by_cases hpattern : pattern = ip
    · exact ⟨_, hperm.mem_iff.mpr List.mem_cons_self, hpattern.symm⟩
    · obtain ⟨entry, hmem, heq⟩ := h.standing pattern ban
        (by rw [Function.update_of_ne hpattern] at hban ⊢; exact hban) hstands
      exact ⟨entry, hperm.mem_iff.mpr (List.mem_cons_of_mem _ hmem), heq⟩

theorem Represents.removeFromBanList (h : Represents added time banList)
    (hvalid : isRefused ip = false) :
    Represents (Function.update added ip none) time (removeFromBanList banList ip) := by
  rw [BanList.removeFromBanList, hvalid, if_neg Bool.false_ne_true]
  cases hfind : find banList ip with
  | none => exact h.unlisted fun entry hmem => find_none hfind hmem
  | some index =>
    obtain ⟨entry, hentry, rfl⟩ := find_some hfind
    obtain ⟨hlt, -⟩ := List.getElem?_eq_some_iff.mp hentry
    have hperm := List.swapRemove_perm hlt
    exact h.removed ((perm_of_getElem? hentry).trans (hperm.symm.cons entry))

theorem Represents.addToBanList (h : Represents added time banList)
    (hvalid : isRefused ip = false) {milliseconds : ℕ} (hms : milliseconds < 2 ^ 31) (start : ℕ) :
    Represents (Function.update added ip (some (start, milliseconds))) time
      (addToBanList banList ip milliseconds start) := by
  rw [BanList.addToBanList, hvalid, if_neg Bool.false_ne_true]
  cases hfind : find banList ip with
  | none =>
    have hunlisted := h.unlisted fun entry hmem => find_none hfind hmem
    exact hunlisted.inserted hms (List.perm_append_singleton _ _)
  | some index =>
    obtain ⟨entry, hentry, rfl⟩ := find_some hfind
    have hremoved := h.removed (perm_of_getElem? hentry)
    refine hremoved.inserted hms ?_
    have hmodified : (banList.modify index fun ban =>
        { ban with timeout := timeoutOf start milliseconds })[index]? =
          some ⟨entry.ip, timeoutOf start milliseconds⟩ := by
      rw [List.getElem?_modify, hentry]
      simp
    have hperm := perm_of_getElem? hmodified
    rwa [List.eraseIdx_modify_of_eq] at hperm

theorem Represents.isExpired_iff (h : Represents added time banList) {entry : BanStruct}
    (hmem : entry ∈ banList)
    (htells : ∀ ban, added entry.ip = some ban → ClockTells time ban) :
    ∃ ban, added entry.ip = some ban ∧
      (isExpired (getTimeMS time) entry = false ↔ Stands time ban) := by
  obtain ⟨ban, hban, hms, htimeout⟩ := h.listed entry hmem
  have hiff := @BanList.isExpired_iff time ban entry.ip hms (htells ban hban)
  rw [← htimeout] at hiff
  refine ⟨ban, hban, ?_⟩
  rw [← Bool.not_eq_true, hiff, not_not]

theorem Represents.isBanned (h : Represents added time banList) (hvalid : isRefused ip = false)
    (hcheck : ∀ entry ∈ banList, (∀ ban, added entry.ip = some ban → ClockTells time ban) ∧
      (entry.ip ≠ ip → ¬ SharesWildcard entry.ip ip)) :
    ((isBanned banList ip time).1 = true ↔
      ∃ pattern ban, added pattern = some ban ∧ Stands time ban ∧ Covers pattern ip) ∧
    Represents added time (isBanned banList ip time).2 := by
  rw [BanList.isBanned, hvalid, if_neg Bool.false_ne_true]
  constructor
  · rw [scan_iff]
    constructor
    · rintro ⟨entry, hmem, hstays, hmatches⟩
      obtain ⟨htells, hshares⟩ := hcheck entry hmem
      obtain ⟨ban, hban, hiff⟩ := h.isExpired_iff hmem htells
      exact ⟨entry.ip, ban, hban, hiff.mp hstays, (matchesIP_iff hshares).mp hmatches⟩
    · rintro ⟨pattern, ban, hban, hstands, hcovers⟩
      obtain ⟨entry, hmem, rfl⟩ := h.standing pattern ban hban hstands
      obtain ⟨htells, hshares⟩ := hcheck entry hmem
      obtain ⟨ban', hban', hiff⟩ := h.isExpired_iff hmem htells
      obtain rfl := Option.some.inj (hban.symm.trans hban')
      exact ⟨entry, hmem, hiff.mpr hstands, (matchesIP_iff hshares).mpr hcovers⟩
  · obtain ⟨left, hperm, hsublist⟩ := scan_subperm ip (getTimeMS time) banList
    have hnodup := (hsublist.map BanStruct.ip).nodup h.nodup
    refine ⟨(hperm.map BanStruct.ip).nodup_iff.mp hnodup, fun entry hmem => ?_, ?_⟩
    · exact h.listed entry (hsublist.subset (hperm.mem_iff.mpr hmem))
    · intro pattern ban hban hstands
      obtain ⟨entry, hmem, rfl⟩ := h.standing pattern ban hban hstands
      obtain ⟨ban', hban', hiff⟩ := h.isExpired_iff hmem (hcheck entry hmem).1
      obtain rfl := Option.some.inj (hban.symm.trans hban')
      exact ⟨entry, mem_scan hmem (hiff.mpr hstands), rfl⟩

/-! ### Runs -/

theorem represents_nil (time : ℕ) : Represents (fun _ => none) time [] where
  nodup := List.nodup_nil
  listed _ hmem := absurd hmem List.not_mem_nil
  standing _ _ hban := absurd hban nofun

theorem isRefused_eq_false (hne : ip ≠ []) (hlength : ip.length ≤ 15) : isRefused ip = false := by
  rw [isRefused, List.isEmpty_eq_false_iff.mpr hne, decide_eq_false (Nat.not_lt.mpr hlength)]
  rfl

theorem Represents.step {call : BanCall} (h : Represents added call.time banList)
    (hvalid : call.command.Valid)
    (hcheck : ∀ ip, call.command = .isBanned ip →
      ∀ entry ∈ banList, (∀ ban, added entry.ip = some ban → ClockTells call.time ban) ∧
        (entry.ip ≠ ip → ¬ SharesWildcard entry.ip ip)) :
    Represents (register added call) call.time (step banList call) := by
  obtain ⟨time, command⟩ := call
  cases command with
  | addToBanList ip milliseconds =>
    exact h.addToBanList (isRefused_eq_false hvalid.1 hvalid.2.1) hvalid.2.2 time
  | removeFromBanList ip => exact h.removeFromBanList (isRefused_eq_false hvalid.1 hvalid.2)
  | clearBanList => exact represents_nil time
  | isBanned ip => exact (h.isBanned (isRefused_eq_false hvalid.1 hvalid.2) (hcheck ip rfl)).2

theorem represents_run {calls : List BanCall} (hvalid : ∀ call ∈ calls, call.command.Valid)
    (htimes : calls.Pairwise fun first second => first.time ≤ second.time)
    (hcheck : Checkable calls) :
    ∀ before after, calls = before ++ after → ∀ time, (∀ call ∈ before, call.time ≤ time) →
      Represents (registered before) time (run before) := by
  refine Transition.run_prefix (fun before banList => ∀ time, (∀ call ∈ before, call.time ≤ time) →
    Represents (registered before) time banList) (fun time _ => represents_nil time) ?_
  intro before call after hcalls hinv time hle
  have hbefore : ∀ earlier ∈ before, earlier.time ≤ call.time := by
    rw [hcalls, List.pairwise_append] at htimes
    exact fun earlier hmem => htimes.2.2 earlier hmem call List.mem_cons_self
  have hcall : call ∈ calls := hcalls ▸ List.mem_append_right before List.mem_cons_self
  have hstep := (hinv call.time hbefore).step (hvalid call hcall) fun ip hcommand =>
    hcheck before call.time ip after (by rw [hcalls, ← hcommand])
  rw [registered, List.foldl_append]
  exact hstep.later (hle call (List.mem_append_right before List.mem_cons_self))

/-- The bans mean what they say in every run in which the clock tells, at each look, which of the
bans on the list are over. -/
theorem bans_as_meant (calls : List BanCall) (hvalid : ∀ call ∈ calls, call.command.Valid)
    (htimes : calls.Pairwise fun first second => first.time ≤ second.time)
    (hcheck : Checkable calls) : BansAsMeant calls := by
  intro before time ip after hcalls
  have hbefore : ∀ earlier ∈ before, earlier.time ≤ time := by
    rw [hcalls, List.pairwise_append] at htimes
    exact fun earlier hmem => htimes.2.2 earlier hmem _ List.mem_cons_self
  have hmem : (⟨time, .isBanned ip⟩ : BanCall) ∈ calls :=
    hcalls ▸ List.mem_append_right before List.mem_cons_self
  have hcall := hvalid _ hmem
  have hrepresents := represents_run hvalid htimes hcheck before _ hcalls time hbefore
  exact (hrepresents.isBanned (isRefused_eq_false hcall.1 hcall.2)
    (hcheck before time ip after hcalls)).1

/-- A ban of `1*` for a second, and a look at the address `17` at some other time. -/
def oneSecondBan (start time : ℕ) : List BanCall :=
  [⟨start, .addToBanList [49, 42] 1000⟩, ⟨time, .isBanned [49, 55]⟩]

theorem oneSecondBan_look {start time time' : ℕ} {before after : List BanCall} {ip : List UInt8}
    (h : oneSecondBan start time = before ++ ⟨time', .isBanned ip⟩ :: after) :
    before = [⟨start, .addToBanList [49, 42] 1000⟩] ∧ time' = time ∧ ip = [49, 55] := by
  match before, h with
  | [], h => exact absurd (List.cons.inj h).1 (by simp)
  | [first], h =>
    obtain ⟨rfl, hlook⟩ := List.cons.inj h
    have hlook := (List.cons.inj hlook).1
    simp only [BanCall.mk.injEq, BanCommand.isBanned.injEq] at hlook
    exact ⟨rfl, hlook.1.symm, hlook.2.symm⟩
  | _ :: _ :: before, h =>
    have hlength := congrArg List.length h
    simp [oneSecondBan] at hlength

theorem bans_as_meant_one_second : BansAsMeant (oneSecondBan 5 900) := by
  refine bans_as_meant _ ?_ (by simp [oneSecondBan]) ?_
  · simp [oneSecondBan, BanCommand.Valid]
  · intro before time ip after hcalls entry hmem
    obtain ⟨rfl, rfl, rfl⟩ := oneSecondBan_look hcalls
    obtain rfl : entry = ⟨[49, 42], timeoutOf 5 1000⟩ := List.mem_singleton.mp hmem
    refine ⟨fun ban hban => ?_, fun _ hshares => ?_⟩
    · obtain rfl : (5, 1000) = ban := Option.some.inj hban
      decide
    · obtain ⟨first, rest, rest', -, haddress⟩ := hshares
      have hstar : banWildcard ∈ [49, 55] := haddress ▸ List.mem_append_right _ List.mem_cons_self
      exact absurd hstar (by decide)

/-- Half a second before the clock wraps, a ban for a second is over at once. -/
theorem wrapped_ban_lost :
    ¬ BansAsMeant (oneSecondBan (2 ^ 32 - 500) (2 ^ 32 - 499)) := by
  intro h
  have hbanned := (h [⟨2 ^ 32 - 500, .addToBanList [49, 42] 1000⟩] (2 ^ 32 - 499) [49, 55] []
    rfl).mpr ⟨[49, 42], (2 ^ 32 - 500, 1000), rfl, Or.inr (by decide),
      Or.inr ⟨[49], [], rfl, ⟨[55], rfl⟩, by decide⟩⟩
  obtain ⟨entry, hmem, hstays, -⟩ := (scan_iff _ _ _).mp hbanned
  obtain rfl : entry = ⟨[49, 42], timeoutOf (2 ^ 32 - 500) 1000⟩ := List.mem_singleton.mp hmem
  exact absurd hstays (by decide)

end BanList

end SLikeNet
