import SLikeNet.EstablishedConnection

/-! What the handling of an offline datagram reads. Reads through a stream stop at the end of the
datagram and leave their target as it was; the classification of a pong compares behind it. -/

namespace SLikeNet

/-! ### Reads that succeed -/

theorem readNat_isSome (n : ℕ) (unread : Unread) :
    (readNat n unread).1.isSome = true ↔ n ≤ unread.length := by
  unfold readNat readBytes
  split
  · rename_i hshort
    exact ⟨fun h => absurd h Bool.false_ne_true, fun h => absurd hshort (Nat.not_lt.mpr h)⟩
  · rename_i hlong
    exact ⟨fun _ => Nat.not_lt.mp hlong, fun _ => rfl⟩

theorem length_readNat (n : ℕ) (unread : Unread) :
    (readNat n unread).2.length =
      if n ≤ unread.length then unread.length - n else unread.length := by
  unfold readNat readBytes
  split
  · rename_i hshort
    rw [if_neg (Nat.not_le.mpr hshort)]
  · rename_i hlong
    rw [if_pos (Nat.not_lt.mp hlong)]
    exact List.length_drop

theorem readNat_snd {n : ℕ} {unread : Unread} (h : n ≤ unread.length) :
    (readNat n unread).2 = unread.drop n := by
  unfold readNat
  rw [readBytes_of_le h]

theorem readUInt16_isSome (unread : Unread) :
    (readUInt16 unread).1.isSome = true ↔ 2 ≤ unread.length := by
  rw [readUInt16, Option.isSome_map, readNat_isSome]

theorem readUInt32_isSome (unread : Unread) :
    (readUInt32 unread).1.isSome = true ↔ 4 ≤ unread.length := by
  rw [readUInt32, Option.isSome_map, readNat_isSome]

theorem readUInt64_isSome (unread : Unread) :
    (readUInt64 unread).1.isSome = true ↔ 8 ≤ unread.length := by
  rw [readUInt64, Option.isSome_map, readNat_isSome]

theorem missingField_eq_nil {α : Type} {field : OfflineField} {read : Option α} :
    missingField field read = [] ↔ read.isSome = true := by
  cases read <;> simp [missingField]

theorem missingAddress_eq_nil {unread : Unread} :
    missingAddress unread = [] ↔ addressCutOff unread = false := by
  cases h : addressCutOff unread <;> simp [missingAddress, h]

/-! ### Addresses -/

/-- The bytes of an address, by its version. -/
def addressLength (version : UInt8) : ℕ := if version = 4 then 1 + 4 + 2 else 1

theorem addressCutOff_cons (version : UInt8) (rest : Unread) :
    addressCutOff (version :: rest) = false ↔ addressLength version ≤ rest.length + 1 := by
  unfold addressCutOff addressLength
  by_cases hversion : version = 4
  · simp only [hversion, decide_true, Bool.true_and, decide_eq_false_iff_not, if_true]
    omega
  · simp only [hversion, decide_false, Bool.false_and, if_false, true_iff]
    omega

theorem readSystemAddress_cons (u : Uninitialised) (version : UInt8) (rest : Unread) :
    (readSystemAddress u (version :: rest)).2.2 =
      if version = 4 then (readUInt16 (readUInt32 rest).2).2 else rest := by
  unfold readSystemAddress
  rw [readUInt8_cons]
  dsimp only [Option.getD_some]
  split <;> rfl

theorem readSystemAddress_rest (u : Uninitialised) {version : UInt8} {rest : Unread}
    (h : addressCutOff (version :: rest) = false) :
    (readSystemAddress u (version :: rest)).2.2 =
      (version :: rest).drop (addressLength version) := by
  rw [addressCutOff_cons, addressLength] at h
  rw [readSystemAddress_cons, addressLength]
  split
  · rename_i hversion
    rw [if_pos hversion] at h
    have hport : 2 ≤ (rest.drop 4).length := by
      rw [List.length_drop]
      omega
    show (readNat 2 (readNat 4 rest).2).2 = rest.drop 6
    rw [readNat_snd (show 4 ≤ rest.length by omega), readNat_snd hport, List.drop_drop]
  · rfl

theorem readSystemAddress_cutOff (u : Uninitialised) {unread : Unread}
    (h : addressCutOff unread = true) : (readSystemAddress u unread).2.2.length ≤ 1 := by
  cases unread with
  | nil =>
    unfold readSystemAddress
    dsimp only
    split <;> exact Nat.zero_le 1
  | cons version rest =>
    simp only [addressCutOff, Bool.and_eq_true, decide_eq_true_iff] at h
    rw [readSystemAddress_cons, if_pos h.1]
    show (readNat 2 (readNat 4 rest).2).2.length ≤ 1
    rw [length_readNat, length_readNat]
    split <;> split <;> omega

/-! ### Datagrams -/

namespace Datagram

theorem drop_byte (d : Datagram) {k : ℕ} (h : k < d.length) :
    d.data.drop k = d.byte k :: d.data.drop (k + 1) := by
  rw [List.drop_eq_getElem_cons h, byte, List.getD_eq_getElem?_getD, List.getElem?_eq_getElem h]
  rfl

/-- An address and `n` more bytes stand behind the first `offset` ones. -/
def HoldsAddressAnd (d : Datagram) (offset n : ℕ) : Prop :=
  offset + addressLength (d.byte offset) + n ≤ d.length

instance (d : Datagram) (offset n : ℕ) : Decidable (d.HoldsAddressAnd offset n) :=
  inferInstanceAs (Decidable (offset + addressLength (d.byte offset) + n ≤ d.length))

theorem addressLength_pos (version : UInt8) : 1 ≤ addressLength version := by
  unfold addressLength
  split <;> decide

theorem address_cases (d : Datagram) (u : Uninitialised) (offset : ℕ) :
    (addressCutOff (d.data.drop offset) = false ∧ d.HoldsAddressAnd offset 0 ∧
      (readSystemAddress u (d.data.drop offset)).2.2.length =
        d.length - (offset + addressLength (d.byte offset))) ∨
    (addressCutOff (d.data.drop offset) = true ∧ ¬ d.HoldsAddressAnd offset 0 ∧
      (readSystemAddress u (d.data.drop offset)).2.2.length ≤ 1) := by
  have hpos := addressLength_pos (d.byte offset)
  have hlength : (d.data.drop (offset + 1)).length = d.length - (offset + 1) := List.length_drop
  unfold HoldsAddressAnd
  rcases Nat.lt_or_ge offset d.length with hinside | hend
  · rw [d.drop_byte hinside]
    cases hcut : addressCutOff (d.byte offset :: d.data.drop (offset + 1)) with
    | false =>
      left
      rw [readSystemAddress_rest u hcut, List.length_drop, List.length_cons]
      rw [addressCutOff_cons] at hcut
      exact ⟨rfl, by omega, by omega⟩
    | true =>
      right
      refine ⟨rfl, fun hfits => ?_, readSystemAddress_cutOff u hcut⟩
      rw [(addressCutOff_cons _ _).mpr (by omega)] at hcut
      exact Bool.false_ne_true hcut
  · rw [List.drop_eq_nil_of_le hend]
    exact Or.inr ⟨rfl, by omega, readSystemAddress_cutOff u rfl⟩

theorem holdsAddressAnd_iff (d : Datagram) (u : Uninitialised) (offset : ℕ) {n : ℕ} (hn : 2 ≤ n) :
    d.HoldsAddressAnd offset n ↔ n ≤ (readSystemAddress u (d.data.drop offset)).2.2.length := by
  have hcases := d.address_cases u offset
  unfold HoldsAddressAnd at hcases ⊢
  omega

theorem addressCutOff_of_holds (d : Datagram) {offset n : ℕ} (h : d.HoldsAddressAnd offset n) :
    addressCutOff (d.data.drop offset) = false := by
  rcases d.address_cases ⟨0, 0, 0, 0, 0, 0, 0, 0⟩ offset with ⟨hcut, -⟩ | ⟨-, hshort, -⟩
  · exact hcut
  · refine absurd ?_ hshort
    unfold HoldsAddressAnd at h ⊢
    omega

theorem length_of_offline (d : Datagram) (h : d.isOfflineMessage.1 = true) :
    d.length ≤ 2 ∨ 25 ≤ d.length ∧ (d.id = MessageID.incompatibleProtocolVersion → d.length = 26) := by
  unfold isOfflineMessage at h
  split at h
  · rename_i hshort
    exact Or.inl hshort
  split at h
  · rename_i hping
    refine Or.inr ⟨hping.2, fun hid => ?_⟩
    rcases hping.1 with hother | hother <;> exact absurd (hother.symm.trans hid) (by decide)
  split at h
  · rename_i hpong
    exact Or.inr ⟨by omega, fun hid => absurd (hpong.1.symm.trans hid) (by decide)⟩
  split at h
  · rename_i hband
    exact Or.inr ⟨hband.2, fun hid => absurd (hband.1.symm.trans hid) (by decide)⟩
  split at h
  · rename_i hids
    refine Or.inr ⟨hids.2, fun hid => absurd hids.1 ?_⟩
    rw [hid]
    decide
  split at h
  · rename_i hversion
    exact Or.inr ⟨by omega, fun _ => hversion.2⟩
  · exact absurd h Bool.false_ne_true

theorem range'_within (offset n length : ℕ) (hn : 0 < n) :
    (∀ i ∈ List.range' offset n, i < length) ↔ offset + n ≤ length := by
  constructor
  · intro h
    have hlast := h (offset + n - 1) (List.mem_range'_1.mpr (by omega))
    omega
  · intro h i hi
    have hbounds := List.mem_range'_1.mp hi
    omega

theorem accessed_isOfflineMessage (d : Datagram) :
    (∀ offset ∈ d.isOfflineMessage.2, offset < d.length) ↔
      ¬ (d.id = MessageID.unconnectedPong ∧ 29 ≤ d.length ∧ d.length < 33) := by
  have hnone : ∀ offset ∈ ([] : List ℕ), offset < d.length := fun _ h => absurd h List.not_mem_nil
  have hcompare : ∀ offset, (∀ i ∈ (d.compareAt offset).2, i < d.length) ↔
      offset + 16 ≤ d.length := fun offset => range'_within offset 16 d.length (by decide)
  unfold isOfflineMessage
  split
  · rename_i hshort
    exact iff_of_true hnone (by omega)
  split
  · rename_i hping
    refine iff_of_true ((hcompare _).mpr (by omega)) fun hpong => ?_
    rcases hping.1 with hother | hother <;> exact absurd (hother.symm.trans hpong.1) (by decide)
  split
  · rename_i hpong
    refine (hcompare _).trans ⟨fun h hwindow => by omega, fun h => ?_⟩
    exact Nat.not_lt.mp fun hlt => h ⟨hpong.1, hpong.2, hlt⟩
  · rename_i hpong
    have hnot : ¬ (d.id = MessageID.unconnectedPong ∧ 29 ≤ d.length ∧ d.length < 33) :=
      fun h => hpong ⟨h.1, h.2.1⟩
    split
    · exact iff_of_true ((hcompare _).mpr (by omega)) hnot
    split
    · exact iff_of_true ((hcompare _).mpr (by omega)) hnot
    split
    · exact iff_of_true ((hcompare _).mpr (by omega)) hnot
    · exact iff_of_true hnone hnot

end Datagram

/-- Everything is read from inside the datagram, and no field is used that it ends before. -/
structure Handled.StaysWithin (h : Handled) (d : Datagram) : Prop where
  accessed : ∀ offset ∈ h.accessed, offset < d.length
  missing : h.missing = []

namespace RakPeer

variable {cfg : PeerConfig} {env : ReceiveEnv}

/-- The lengths that the messages need which are not tested for their length, or not enough. -/
structure LongEnough (cfg : PeerConfig) (env : ReceiveEnv) (s : RakPeer) (sa : SystemAddress)
    (d : Datagram) : Prop where
  unconnectedPing : d.id = MessageID.unconnectedPing ∨
    d.id = MessageID.unconnectedPingOpenConnections ∧ s.allowIncomingConnections cfg = true →
      25 ≤ d.length → 33 ≤ d.length
  openConnectionReply1 : d.id = MessageID.openConnectionReply1 →
    26 ≤ d.length ∧ ((s.requested sa).isSome = true →
      (if d.byte 25 = 0 then 28 else 32) ≤ d.length)
  openConnectionReply2 : d.id = MessageID.openConnectionReply2 →
    (s.requested sa).isSome = true →
    s.systems.getRemoteSystemFromSystemAddress cfg sa = none →
    s.systems.thisIPConnectedRecently cfg sa env.timeMS = false →
      25 ≤ d.length ∧
        ((∃ i < cfg.maximumNumberOfPeers, ¬ s.Active i) → d.HoldsAddressAnd (1 + 16 + 8) 2)
  connectionFailure : d.id ∈ connectionFailureIds → (s.requested sa).isSome = true → 25 ≤ d.length
  openConnectionRequest2 : d.id = MessageID.openConnectionRequest2 →
    d.HoldsAddressAnd (1 + 16) (2 + 8)

theorem append_eq_nil_iff_of {l m : List OfflineField} {p : Prop} (hl : l = [] ↔ p)
    (hm : p → m = []) : l ++ m = [] ↔ p :=
  List.append_eq_nil_iff.trans ⟨fun h => hl.mp h.1, fun h => ⟨hl.mpr h, hm h⟩⟩

theorem missing_unconnectedPing (s : RakPeer) (sa : SystemAddress) (d : Datagram)
    (hlength : 25 ≤ d.length) :
    (s.unconnectedPing cfg env sa d).missing = [] ↔
      (d.id = MessageID.unconnectedPing ∨ s.allowIncomingConnections cfg = true →
        33 ≤ d.length) := by
  unfold unconnectedPing
  split
  · rename_i hanswered
    have htime : 8 ≤ (d.data.drop 1).length := by
      rw [List.length_drop]
      exact Nat.le_sub_of_add_le (Nat.le_trans (by decide) hlength)
    dsimp only
    rw [missingField_eq_nil, readUInt64_isSome, readBytes_of_le htime, List.drop_drop,
      List.drop_drop, List.length_drop, imp_iff_right hanswered]
    show 8 ≤ d.length - 25 ↔ _
    omega
  · rename_i hunanswered
    exact iff_of_true rfl fun h => absurd h hunanswered

theorem missing_connectionFailureReply (s : RakPeer) (sa : SystemAddress) (d : Datagram)
    (hoffline : d.isOfflineMessage.1 = true) :
    (s.connectionFailureReply sa d).missing = [] ↔
      ((s.requested sa).isSome = true → 25 ≤ d.length) := by
  unfold connectionFailureReply
  dsimp only
  cases hrequested : s.requested sa with
  | none => exact iff_of_true rfl fun h => absurd h Bool.false_ne_true
  | some rcs =>
    have hlength := d.length_of_offline hoffline
    dsimp only
    rw [missingField_eq_nil, readUInt64_isSome, List.length_drop, Option.isSome_some,
      imp_iff_right rfl]
    show 8 ≤ d.length - _ ↔ _
    split
    · rename_i hversion
      rcases hlength with hshort | ⟨-, hexact⟩
      · omega
      · have heq := hexact hversion
        omega
    · omega

theorem missing_openConnectionRequest2 (s : RakPeer) (sa : SystemAddress) (d : Datagram) :
    (s.openConnectionRequest2 cfg env sa d).missing = [] ↔
      d.HoldsAddressAnd (1 + 16) (2 + 8) := by
  have hrest := d.holdsAddressAnd_iff env.uninitialised (1 + 16) (show 2 ≤ 2 + 8 by decide)
  have hlength := length_readNat 2 (readSystemAddress env.uninitialised (d.data.drop (1 + 16))).2.2
  have hguid : missingField .guid (readUInt64 (readUInt16 (readSystemAddress env.uninitialised
      (d.data.drop (1 + 16))).2.2).2).1 = [] ↔ d.HoldsAddressAnd (1 + 16) (2 + 8) := by
    rw [missingField_eq_nil, readUInt64_isSome, hrest]
    show 8 ≤ (readNat 2 _).2.length ↔ _
    rw [hlength]
    split <;> omega
  have hmtu : d.HoldsAddressAnd (1 + 16) (2 + 8) → missingField .mtu (readUInt16
      (readSystemAddress env.uninitialised (d.data.drop (1 + 16))).2.2).1 = [] := by
    intro h
    rw [missingField_eq_nil, readUInt16_isSome]
    exact Nat.le_trans (by decide) (hrest.mp h)
  have haddress : d.HoldsAddressAnd (1 + 16) (2 + 8) →
      missingAddress (d.data.drop (1 + 16)) = [] :=
    fun h => missingAddress_eq_nil.mpr (d.addressCutOff_of_holds h)
  unfold openConnectionRequest2
  dsimp only
  split
  · exact append_eq_nil_iff_of hguid hmtu
  · exact hguid
  · split
    · split
      · exact hguid
      · exact append_eq_nil_iff_of hguid hmtu
      · exact append_eq_nil_iff_of (append_eq_nil_iff_of hguid hmtu) haddress
    · exact hguid

theorem readGuid_rest (d : Datagram) (h : 25 ≤ d.length) :
    (readGuid (d.data.drop (1 + 16))).2 = d.data.drop (1 + 16 + 8) := by
  rw [readGuid_snd, readUInt64_of_le, List.drop_drop]
  rw [List.length_drop]
  exact Nat.le_sub_of_add_le h

theorem readGuid_offline (d : Datagram) (hoffline : d.isOfflineMessage.1 = true) :
    (readGuid (d.data.drop (1 + 16))).2 =
      if 26 ≤ d.length then d.byte 25 :: d.data.drop 26 else [] := by
  split
  · rename_i hlong
    rw [readGuid_rest d (Nat.le_of_succ_le hlong)]
    exact d.drop_byte hlong
  · rename_i hshort
    rcases d.length_of_offline hoffline with htwo | ⟨hguid, -⟩
    · rw [List.drop_eq_nil_of_le (show d.data.length ≤ 1 + 16 from Nat.le_trans htwo (by decide))]
      rfl
    · rw [readGuid_rest d hguid]
      exact List.drop_eq_nil_of_le (Nat.le_of_lt_succ (Nat.not_le.mp hshort))

theorem missing_openConnectionReply1 (s : RakPeer) (sa : SystemAddress) (d : Datagram)
    (hoffline : d.isOfflineMessage.1 = true) :
    (s.openConnectionReply1 cfg env sa d).missing = [] ↔
      26 ≤ d.length ∧ ((s.requested sa).isSome = true →
        (if d.byte 25 = 0 then 28 else 32) ≤ d.length) := by
  unfold openConnectionReply1
  dsimp only
  rw [readGuid_offline d hoffline]
  by_cases hlong : 26 ≤ d.length
  · have hrest : (d.data.drop 26).length = d.length - 26 := List.length_drop
    rw [if_pos hlong, readUInt8_cons, and_iff_right hlong]
    dsimp only [Option.getD_some]
    cases hrequested : s.requested sa with
    | none => exact iff_of_true rfl fun h => absurd h Bool.false_ne_true
    | some rcs =>
      dsimp only
      rw [Option.isSome_some, imp_iff_right rfl, List.append_eq_nil_iff, List.append_eq_nil_iff,
        missingField_eq_nil, missingField_eq_nil, readUInt16_isSome, Option.isSome_some,
        and_iff_right rfl]
      by_cases hsecure : d.byte 25 = 0
      · rw [if_neg (not_not_intro hsecure), if_neg (not_not_intro hsecure), if_pos hsecure]
        rw [and_iff_right rfl, hrest]
        omega
      · have hcookie := length_readNat 4 (d.data.drop 26)
        rw [if_pos hsecure, if_pos hsecure, if_neg hsecure, missingField_eq_nil, readUInt32_isSome]
        show _ ∧ 2 ≤ (readNat 4 (d.data.drop 26)).2.length ↔ _
        rw [hcookie]
        split <;> omega
  · rw [if_neg hlong]
    refine iff_of_false (fun h => ?_) fun h => hlong h.1
    have hflag : missingField .securityFlag (readUInt8 []).1 ≠ [] := by decide
    cases hrequested : s.requested sa with
    | none =>
      rw [hrequested] at h
      exact hflag h
    | some rcs =>
      rw [hrequested] at h
      exact hflag (List.append_eq_nil_iff.mp (List.append_eq_nil_iff.mp h).1).1

theorem assign_outcome (s : RakPeer) (sa : SystemAddress) (mode : ConnectMode) (mtu : ℕ)
    (guid : RakNetGUID) (time : ℕ) {outcome : RemoteSystems.Assignment} {systems : RemoteSystems}
    (h : s.systems.assignSystemAddressToRemoteSystemList cfg sa mode mtu guid time =
      (outcome, systems)) :
    match outcome with
    | .connectedRecently => s.systems.thisIPConnectedRecently cfg sa time = true
    | .noFreeSlot => s.systems.thisIPConnectedRecently cfg sa time = false ∧
        ¬ ∃ i < cfg.maximumNumberOfPeers, ¬ s.Active i
    | .assigned _ => s.systems.thisIPConnectedRecently cfg sa time = false ∧
        ∃ i < cfg.maximumNumberOfPeers, ¬ s.Active i := by
  unfold RemoteSystems.assignSystemAddressToRemoteSystemList at h
  split at h
  · rename_i hrecently
    obtain ⟨rfl, -⟩ := Prod.mk.inj h
    exact hrecently
  · rename_i hrecently
    split at h
    · rename_i hfind
      obtain ⟨rfl, -⟩ := Prod.mk.inj h
      refine ⟨eq_false_of_ne_true hrecently, ?_⟩
      rintro ⟨i, hi, hinactive⟩
      refine List.find?_eq_none.mp hfind i (List.mem_range.mpr hi) ?_
      rw [eq_false_of_ne_true hinactive]
      rfl
    · rename_i i hfind
      obtain ⟨rfl, -⟩ := Prod.mk.inj h
      refine ⟨eq_false_of_ne_true hrecently, i,
        List.mem_range.mp (List.mem_of_find?_eq_some hfind), ?_⟩
      have := List.find?_some hfind
      simpa [Active, RemoteSystems.Active] using this

theorem missing_openConnectionReply2 (s : RakPeer) (sa : SystemAddress) (d : Datagram) :
    (s.openConnectionReply2 cfg env sa d).missing = [] ↔
      ((s.requested sa).isSome = true →
        s.systems.getRemoteSystemFromSystemAddress cfg sa = none →
        s.systems.thisIPConnectedRecently cfg sa env.timeMS = false →
          25 ≤ d.length ∧
            ((∃ i < cfg.maximumNumberOfPeers, ¬ s.Active i) →
              d.HoldsAddressAnd (1 + 16 + 8) 2)) := by
  have hguid : missingField .guid (readUInt64 (d.data.drop (1 + 16))).1 = [] ↔ 25 ≤ d.length := by
    rw [missingField_eq_nil, readUInt64_isSome, List.length_drop]
    show 8 ≤ d.length - 17 ↔ _
    omega
  unfold openConnectionReply2
  dsimp only
  cases hrequested : s.requested sa with
  | none => exact iff_of_true rfl fun h => absurd h Bool.false_ne_true
  | some rcs =>
    dsimp only
    rw [Option.isSome_some, imp_iff_right rfl]
    cases hfound : s.systems.getRemoteSystemFromSystemAddress cfg sa with
    | some i => exact iff_of_true rfl fun h => absurd h (Option.some_ne_none i)
    | none =>
      dsimp only
      rw [imp_iff_right rfl]
      split
      · rename_i systems hassign
        have hrecently := assign_outcome s sa _ _ _ _ hassign
        exact iff_of_true rfl fun h => Bool.noConfusion (h.symm.trans hrecently)
      · rename_i systems hassign
        obtain ⟨hrecently, hfull⟩ := assign_outcome s sa _ _ _ _ hassign
        rw [imp_iff_right hrecently, and_iff_left fun h => absurd h hfull]
        exact hguid
      · rename_i i systems hassign
        obtain ⟨hrecently, hfree⟩ := assign_outcome s sa _ _ _ _ hassign
        rw [imp_iff_right hrecently, imp_iff_right hfree, List.append_eq_nil_iff,
          List.append_eq_nil_iff, hguid, and_assoc]
        refine and_congr_right fun hlong => ?_
        rw [readGuid_rest d hlong, missingAddress_eq_nil, missingField_eq_nil, readUInt16_isSome,
          ← d.holdsAddressAnd_iff env.uninitialised (1 + 16 + 8) (Nat.le_refl 2)]
        exact and_iff_right_of_imp d.addressCutOff_of_holds

/-! ### Every kind of message -/

section

variable (s : RakPeer) (sa : SystemAddress) (d : Datagram)

theorem processOfflineMessage_ping
    (h : d.id = MessageID.unconnectedPing ∨ d.id = MessageID.unconnectedPingOpenConnections)
    (hlength : 25 ≤ d.length) :
    s.processOfflineMessage cfg env sa d = s.unconnectedPing cfg env sa d :=
  if_pos ⟨h.symm, hlength⟩

theorem processOfflineMessage_reply1 (h : d.id = MessageID.openConnectionReply1) :
    s.processOfflineMessage cfg env sa d = s.openConnectionReply1 cfg env sa d := by
  unfold processOfflineMessage
  rw [h, if_neg fun hc => absurd hc.1 (by decide), if_neg fun hc => absurd hc.1 (by decide),
    if_neg fun hc => absurd hc.1 (by decide), if_pos rfl]

theorem processOfflineMessage_reply2 (h : d.id = MessageID.openConnectionReply2) :
    s.processOfflineMessage cfg env sa d = s.openConnectionReply2 cfg env sa d := by
  unfold processOfflineMessage
  rw [h, if_neg fun hc => absurd hc.1 (by decide), if_neg fun hc => absurd hc.1 (by decide),
    if_neg fun hc => absurd hc.1 (by decide), if_neg (by decide), if_pos rfl]

theorem processOfflineMessage_failure (h : d.id ∈ connectionFailureIds) :
    s.processOfflineMessage cfg env sa d = s.connectionFailureReply sa d := by
  have hne : ∀ id, id ∉ connectionFailureIds → d.id ≠ id := fun id hid heq => hid (heq ▸ h)
  unfold processOfflineMessage
  rw [if_neg fun hc => hc.1.elim (hne _ (by decide)) (hne _ (by decide)),
    if_neg fun hc => hne _ (by decide) hc.1, if_neg fun hc => hne _ (by decide) hc.1,
    if_neg (hne _ (by decide)), if_neg (hne _ (by decide)), if_pos h]

theorem processOfflineMessage_request2 (h : d.id = MessageID.openConnectionRequest2) :
    s.processOfflineMessage cfg env sa d = s.openConnectionRequest2 cfg env sa d := by
  unfold processOfflineMessage
  rw [h, if_neg fun hc => absurd hc.1 (by decide), if_neg fun hc => absurd hc.1 (by decide),
    if_neg fun hc => absurd hc.1 (by decide), if_neg (by decide), if_neg (by decide),
    if_neg (by decide), if_neg fun hc => absurd hc.1 (by decide), if_pos rfl]

end

theorem accessed_processOfflineMessage (s : RakPeer) (sa : SystemAddress) (d : Datagram) :
    ∀ offset ∈ (s.processOfflineMessage cfg env sa d).accessed, offset < d.length := by
  have hnone : ∀ offset ∈ ([] : List ℕ), offset < d.length := fun _ h => absurd h List.not_mem_nil
  unfold processOfflineMessage
  split
  · unfold unconnectedPing
    split <;> exact hnone
  split
  · rename_i hpong
    intro offset hoffset
    have hbounds := List.mem_range'_1.mp hoffset
    omega
  split
  · rename_i hband
    intro offset hoffset
    rcases List.mem_cons.mp hoffset with rfl | hrange
    · exact hband.2.1
    · have hbounds := List.mem_range'_1.mp hrange
      omega
  split
  · unfold openConnectionReply1
    dsimp only
    split <;> exact hnone
  split
  · unfold openConnectionReply2
    dsimp only
    split
    · exact hnone
    · split
      · exact hnone
      · split <;> exact hnone
  split
  · unfold connectionFailureReply
    dsimp only
    split <;> exact hnone
  split
  · rename_i hrequest
    unfold openConnectionRequest1
    split <;> exact fun offset hoffset => (List.mem_singleton.mp hoffset) ▸ hrequest.2
  split
  · unfold openConnectionRequest2
    dsimp only
    split
    · exact hnone
    · exact hnone
    · split
      · split <;> exact hnone
      · exact hnone
  · exact hnone

theorem missing_processOfflineMessage (s : RakPeer) (sa : SystemAddress) (d : Datagram)
    (hoffline : d.isOfflineMessage.1 = true) :
    (s.processOfflineMessage cfg env sa d).missing = [] ↔ LongEnough cfg env s sa d := by
  constructor
  · intro h
    refine ⟨fun hid hlength => ?_, fun hid => ?_, fun hid => ?_, fun hid => ?_, fun hid => ?_⟩
    · rw [processOfflineMessage_ping s sa d (hid.imp_right And.left) hlength,
        missing_unconnectedPing s sa d hlength] at h
      exact h (hid.imp_right And.right)
    · rw [processOfflineMessage_reply1 s sa d hid] at h
      exact (missing_openConnectionReply1 s sa d hoffline).mp h
    · rw [processOfflineMessage_reply2 s sa d hid] at h
      exact (missing_openConnectionReply2 s sa d).mp h
    · rw [processOfflineMessage_failure s sa d hid] at h
      exact (missing_connectionFailureReply s sa d hoffline).mp h
    · rw [processOfflineMessage_request2 s sa d hid] at h
      exact (missing_openConnectionRequest2 s sa d).mp h
  · intro h
    unfold processOfflineMessage
    split
    · rename_i hping
      refine (missing_unconnectedPing s sa d hping.2).mpr fun hanswered => ?_
      refine h.unconnectedPing ?_ hping.2
      rcases hanswered with hid | hallow
      · exact Or.inl hid
      · exact hping.1.symm.imp_right fun hid => ⟨hid, hallow⟩
    split
    · rename_i hpong
      have htime : 8 ≤ (d.data.drop 1).length := by
        rw [List.length_drop]
        exact Nat.le_sub_of_add_le (Nat.le_trans (by decide) hpong.2.1)
      show missingField .guid (readUInt64 (readBytes 8 (d.data.drop 1)).2).1 = []
      rw [missingField_eq_nil, readUInt64_isSome, readBytes_of_le htime, List.drop_drop,
        List.length_drop]
      exact Nat.le_sub_of_add_le (Nat.le_trans (by decide) hpong.2.1)
    split
    · rename_i hband
      show missingField .guid (readUInt64 (d.data.drop 1)).1 = []
      rw [missingField_eq_nil, readUInt64_isSome, List.length_drop]
      exact Nat.le_sub_of_add_le (Nat.le_trans (by decide) (Nat.le_of_lt hband.2.1))
    split
    · rename_i hid
      exact (missing_openConnectionReply1 s sa d hoffline).mpr (h.openConnectionReply1 hid)
    split
    · rename_i hid
      exact (missing_openConnectionReply2 s sa d).mpr (h.openConnectionReply2 hid)
    split
    · rename_i hid
      exact (missing_connectionFailureReply s sa d hoffline).mpr (h.connectionFailure hid)
    split
    · unfold openConnectionRequest1
      split <;> rfl
    split
    · rename_i hid
      exact (missing_openConnectionRequest2 s sa d).mpr (h.openConnectionRequest2 hid)
    · rfl
/-- The datagram is long enough for what is done with it. -/
theorem reads_within_iff (cfg : PeerConfig) (env : ReceiveEnv) (s : RakPeer) (sa : SystemAddress)
    (d : Datagram) :
    (s.processOfflineNetworkPacket cfg env sa d).2.StaysWithin d ↔
      (env.isBanned = false →
        ¬ (d.id = MessageID.unconnectedPong ∧ 29 ≤ d.length ∧ d.length < 33) ∧
          (d.isOfflineMessage.1 = true → LongEnough cfg env s sa d)) := by
  unfold processOfflineNetworkPacket
  split
  · rename_i hbanned
    refine iff_of_true ⟨fun _ h => absurd h List.not_mem_nil, rfl⟩ fun h => ?_
    exact Bool.noConfusion (hbanned.symm.trans h)
  · rename_i hbanned
    rw [imp_iff_right (eq_false_of_ne_true hbanned), ← d.accessed_isOfflineMessage]
    split
    · rename_i hoffline
      dsimp only
      rw [imp_iff_right hoffline, ← missing_processOfflineMessage s sa d hoffline]
      constructor
      · intro h
        exact ⟨fun offset hoffset => h.accessed offset (List.mem_append_left _
          (List.mem_cons_of_mem 0 hoffset)), h.missing⟩
      · rintro ⟨hcompared, hmissing⟩
        refine ⟨fun offset hoffset => ?_, hmissing⟩
        rcases List.mem_append.mp hoffset with hfirst | hhandled
        · rcases List.mem_cons.mp hfirst with rfl | hcompare
          · exact d.pos
          · exact hcompared offset hcompare
        · exact accessed_processOfflineMessage s sa d offset hhandled
    · rename_i hregular
      refine ⟨fun h => ⟨fun offset hoffset => h.accessed offset (List.mem_cons_of_mem 0 hoffset),
        fun hoffline => absurd hoffline hregular⟩, fun h => ⟨fun offset hoffset => ?_, rfl⟩⟩
      rcases List.mem_cons.mp hoffset with rfl | hcompare
      · exact d.pos
      · exact h.1 offset hcompare

/-! ### A short pong -/

/-- A pong that ends before its `OFFLINE_MESSAGE_DATA_ID` does. -/
def shortPong : Datagram where
  data := MessageID.unconnectedPong :: List.replicate 28 0
  beyond _ := 0
  pos := Nat.succ_pos _

theorem shortPong_read_beyond :
    ¬ ∀ (cfg : PeerConfig) (env : ReceiveEnv) (s : RakPeer) (sa : SystemAddress) (d : Datagram),
      (s.processOfflineNetworkPacket cfg env sa d).2.StaysWithin d := by
  intro hclaim
  have hlast := (hclaim oneIncoming plainReceive initial otherAddress shortPong).accessed 32
    (by decide)
  exact absurd hlast (by decide)

end RakPeer

end SLikeNet
