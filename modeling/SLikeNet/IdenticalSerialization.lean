import SLikeNet.IdenticalUpdates
import SLikeNet.Library.Transition
import SLikeNet.TypedVariables

/-! Identical serialization over ticks: the receivers hold the values of the sender after every
tick exactly if no variable goes back to its recorded value behind the back of the tracker. -/

namespace SLikeNet

open VariableListDeltaTracker VariableDeltaSerializer

variable {System : Type*} [DecidableEq System] {ts : List VariableType}

/-- One tick: the current systems in the order in which they are served, the values of the
variables, and what the contexts and the variables of systems that join hold before. -/
structure Tick (System : Type*) (ts : List VariableType) where
  systems : List System
  values : Values ts
  context : System → SerializationContext
  joining : System → Values ts

/-- The sender and the variables of the systems it serves; `current` and `values` are those of the
last tick. -/
structure IdenticalWorld (System : Type*) (ts : List VariableType) where
  serializer : VariableDeltaSerializer
  current : List System
  received : System → Values ts
  values : Values ts

namespace IdenticalWorld

def start (joining : System → Values ts) (values : Values ts) : IdenticalWorld System ts :=
  ⟨.new, [], joining, values⟩

/-- A system only looks at streams that are not empty. -/
def receive (old : Values ts) (bitStream : List Bool) : Values ts :=
  if bitStream = [] then old else old.deserialize 0 bitStream

/-- The systems of a tick are served one after the other. -/
def serve (tick : Tick System ts) (current : List System) :
    List System → VariableDeltaSerializer → (System → Values ts) →
      Option (VariableDeltaSerializer × (System → Values ts))
  | [], s, received => some (s, received)
  | system :: rest, s, received =>
    (s.identicalUpdate (decide (system ∉ current)) (tick.context system)
      tick.values.serializations).bind fun (s', bitStream) =>
        let old := if system ∈ current then received system else tick.joining system
        serve tick current rest s' (Function.update received system (receive old bitStream))

def tickStep (w : Option (IdenticalWorld System ts)) (tick : Tick System ts) :
    Option (IdenticalWorld System ts) :=
  w.bind fun w =>
    (serve tick w.current tick.systems w.serializer.onPreSerializeTick w.received).map
      fun (s, received) => ⟨s, tick.systems, received, tick.values⟩

/-- After a tick its systems hold the values of the sender. -/
def Current (w : Option (IdenticalWorld System ts)) (tick : Tick System ts) : Prop :=
  ∃ w', w = some w' ∧ ∀ system ∈ tick.systems, w'.received system = tick.values

/-- A variable with the bytes that are recorded has not changed since the last tick. -/
def keepsValues : {ts : List VariableType} → List VariableLastValueNode → Values ts → Values ts → Prop
  | t :: _, node :: nodes, (value, values), (old, olds) =>
    ((t.serialization value).data = node.lastData → value = old) ∧ keepsValues nodes values olds
  | _, _, _, _ => True

/-- Where the first system of a tick is not new, no variable goes back to its recorded value, and
the last one does not change its size where the array of the tracker ends with it. -/
def NoReturn (w : Option (IdenticalWorld System ts)) (tick : Tick System ts) : Prop :=
  ∀ w', w = some w' → ∀ first rest, tick.systems = first :: rest → first ∈ w'.current →
    ∀ history ∈ w'.serializer.remoteSystemVariableHistoryList, history.guid = .unassigned →
      keepsValues history.variableListDeltaTracker.variableList tick.values w'.values ∧
        (lastSizeDiffers history.variableListDeltaTracker.variableList tick.values.serializations →
          history.variableListDeltaTracker.variableList.length <
            history.variableListDeltaTracker.allocationSize)

/-! ### Streams -/

theorem merge_eq_iff {nodes : List VariableLastValueNode} (hlen : nodes.length = ts.length)
    (values old : Values ts) :
    Values.merge (changed nodes values.serializations) values old = values ↔
      keepsValues nodes values old := by
  induction ts generalizing nodes with
  | nil => exact ⟨fun _ => trivial, fun _ => rfl⟩
  | cons t ts ih =>
    cases nodes with
    | nil => simp at hlen
    | cons node nodes =>
      obtain ⟨value, values⟩ := values
      obtain ⟨old, olds⟩ := old
      have htail := ih (Nat.succ.inj hlen) values olds
      show (if decide ((t.serialization value).data ≠ node.lastData) then value else old,
          Values.merge (changed nodes values.serializations) values olds) = (value, values) ↔
        ((t.serialization value).data = node.lastData → value = old) ∧ keepsValues nodes values olds
      rw [← htail, Prod.mk_inj]
      by_cases hdata : (t.serialization value).data = node.lastData
      · simp [hdata, eq_comm]
      · simp [hdata]

theorem receive_layout (hts : ts ≠ []) {flags : List Bool} (hflags : flags.length = ts.length)
    (values old : Values ts) (rest : List Bool) :
    receive old (layout [] flags values.serializations ++ rest) = Values.merge flags values old := by
  obtain ⟨written, hlayout, hread⟩ := Values.deserialize_layout flags [] hflags values old
  have hnonempty : layout [] flags values.serializations ++ rest ≠ [] := by
    cases ts with
    | nil => exact absurd rfl hts
    | cons t ts =>
      cases flags with
      | nil => simp at hflags
      | cons flag flags =>
        obtain ⟨suffix, hsuffix⟩ := flag_prefix_layout [] flags flag (t.serialization values.1)
          (Values.serializations values.2)
        have hcons : layout [] (flag :: flags) values.serializations = [] ++ [flag] ++ suffix :=
          hsuffix.symm
        simp [hcons]
  rw [receive, if_neg hnonempty, hlayout, List.nil_append]
  exact hread rest

/-- What the systems of a tick hold before they are served. -/
def before (tick : Tick System ts) (current : List System) (received : System → Values ts)
    (system : System) : Values ts :=
  if system ∈ current then received system else tick.joining system

/-- The systems behind the first one of a tick: those that are not new get the stream of the
first one, the others every variable. -/
theorem serve_rest (hts : ts ≠ []) (tick : Tick System ts) (current : List System)
    {nodes : List VariableLastValueNode} {slots : ℕ} {bs : List Bool} (hnodes : nodes ≠ [])
    {systems : List System} (hnodup : systems.Nodup) {s : VariableDeltaSerializer}
    (hserved : s.Served nodes slots bs) (received : System → Values ts) :
    ∃ s' received', serve tick current systems s received = some (s', received') ∧
      s'.Served nodes slots bs ∧ (∀ system ∉ systems, received' system = received system) ∧
      ∀ system ∈ systems, received' system =
        if system ∈ current then receive (received system) bs else tick.values := by
  induction systems generalizing s received with
  | nil => exact ⟨s, received, rfl, hserved, fun _ _ => rfl, fun _ h => absurd h List.not_mem_nil⟩
  | cons system rest ih =>
    obtain ⟨hnot, hrest⟩ := List.nodup_cons.mp hnodup
    have hvars : tick.values.serializations ≠ [] := by
      intro hnil
      have hlen := Values.length_serializations tick.values
      rw [hnil] at hlen
      exact hts (List.length_eq_zero_iff.mp hlen.symm)
    have hone : ∃ s' stream, s.identicalUpdate (decide (system ∉ current)) (tick.context system)
        tick.values.serializations = some (s', stream) ∧ s'.Served nodes slots bs ∧
        receive (before tick current received system) stream =
          if system ∈ current then receive (received system) bs else tick.values := by
      by_cases hmem : system ∈ current
      · obtain ⟨s', hupdate, hserved'⟩ := identicalUpdate_later hserved.records hserved.did
          tick.values.serializations (tick.context system)
        rw [hserved.cached] at hupdate hserved'
        exact ⟨s', bs, by simpa [hmem] using hupdate, hserved', by simp [before, hmem]⟩
      · obtain ⟨s', hupdate, hserved'⟩ := identicalUpdate_known hserved.records hnodes hvars
          (tick.context system)
        simp only [hserved.did, if_true, hserved.cached] at hupdate hserved'
        refine ⟨s', _, by simpa [hmem] using hupdate, hserved', ?_⟩
        rw [if_neg hmem]
        exact (receive_layout hts (by simp) _ _ _).trans (Values.merge_all _ _)
    obtain ⟨s', stream, hupdate, hserved', hreceive⟩ := hone
    obtain ⟨s'', received', hserve, hserved'', hkept, hgot⟩ := ih hrest hserved'
      (Function.update received system (receive (before tick current received system) stream))
    refine ⟨s'', received', ?_, hserved'', ?_, ?_⟩
    · rw [serve, hupdate]
      exact hserve
    · intro other hother
      rw [hkept other (fun h => hother (List.mem_cons_of_mem _ h)), Function.update_of_ne]
      rintro rfl
      exact hother List.mem_cons_self
    · intro other hother
      rcases List.mem_cons.mp hother with rfl | hlater
      · rw [hkept other hnot, Function.update_self, hreceive]
      · rw [hgot other hlater, Function.update_of_ne]
        rintro rfl
        exact hnot hlater

/-- Between ticks: the tracker has recorded the variables as soon as a system was served, and the
current systems hold the values of the last tick. -/
structure Invariant (w : IdenticalWorld System ts) : Prop where
  records : ∃ nodes slots, w.serializer.Records nodes slots ∧ nodes.length ≤ slots ∧
    (∀ node ∈ nodes, node.isDirty = false) ∧
    (nodes = [] ∧ w.current = [] ∨ nodes.length = ts.length)
  current : ∀ system ∈ w.current, w.received system = w.values

theorem tickStep_first (hts : ts ≠ []) (w : IdenticalWorld System ts) {tick : Tick System ts}
    {first : System} {rest : List System} (hsystems : tick.systems = first :: rest)
    (hnodup : tick.systems.Nodup) {s : VariableDeltaSerializer} {stream bs : List Bool}
    {nodes : List VariableLastValueNode} {slots : ℕ} (hnodes : nodes ≠ [])
    (hfirst : w.serializer.onPreSerializeTick.identicalUpdate (decide (first ∉ w.current))
      (tick.context first) tick.values.serializations = some (s, stream))
    (hserved : s.Served nodes slots bs) :
    ∃ w', tickStep (some w) tick = some w' ∧ w'.serializer.Served nodes slots bs ∧
      w'.current = tick.systems ∧ w'.values = tick.values ∧
      w'.received first = receive (before tick w.current w.received first) stream ∧
      ∀ system ∈ rest, w'.received system =
        if system ∈ w.current then receive (w.received system) bs else tick.values := by
  rw [hsystems] at hnodup
  obtain ⟨hnot, hrest⟩ := List.nodup_cons.mp hnodup
  obtain ⟨s', received', hserve, hserved', hkept, hgot⟩ := serve_rest hts tick w.current hnodes
    hrest hserved
    (Function.update w.received first (receive (before tick w.current w.received first) stream))
  have hall : serve tick w.current tick.systems w.serializer.onPreSerializeTick w.received =
      some (s', received') := by
    rw [hsystems, serve, hfirst]
    exact hserve
  refine ⟨⟨s', tick.systems, received', tick.values⟩, ?_, hserved', rfl, rfl, ?_, ?_⟩
  · rw [tickStep, Option.bind_some, hall]
    rfl
  · show received' first = _
    rw [hkept first hnot, Function.update_self]
  · intro system hsystem
    show received' system = _
    rw [hgot system hsystem, Function.update_of_ne]
    rintro rfl
    exact hnot hsystem

theorem recorded_clean (vars : List Serialization) :
    ∀ node ∈ recorded vars, node.isDirty = false := by
  intro node hnode
  obtain ⟨varData, -, rfl⟩ := List.mem_map.mp hnode
  rfl

theorem length_recorded (values : Values ts) :
    (recorded values.serializations).length = ts.length := by
  simp [recorded]

theorem tick_new (hts : ts ≠ []) {w : IdenticalWorld System ts} (hinv : Invariant w)
    {tick : Tick System ts} {first : System} {rest : List System}
    (hsystems : tick.systems = first :: rest) (hnodup : tick.systems.Nodup)
    (hnew : first ∉ w.current) :
    ∃ w', tickStep (some w) tick = some w' ∧ Invariant w' ∧
      ∀ system ∈ tick.systems, w'.received system = tick.values := by
  have hvars : tick.values.serializations ≠ [] := by
    intro hnil
    have hlen := Values.length_serializations tick.values
    rw [hnil] at hlen
    exact hts (List.length_eq_zero_iff.mp hlen.symm)
  obtain ⟨nodes, slots, hrecords, hslots, hclean, hcase⟩ := hinv.records
  have hfirst : ∃ s nodes' slots', w.serializer.onPreSerializeTick.identicalUpdate true
        (tick.context first) tick.values.serializations =
          some (s, layout [] (List.replicate ts.length true) tick.values.serializations) ∧
      s.Served nodes' slots'
        (layout [] (List.replicate ts.length true) tick.values.serializations) ∧
      nodes'.length = ts.length ∧ nodes'.length ≤ slots' ∧
      ∀ node ∈ nodes', node.isDirty = false := by
    by_cases hnil : nodes = []
    · subst hnil
      obtain ⟨s, slots', hupdate, hle, hserved⟩ := identicalUpdate_first
        (s := w.serializer.onPreSerializeTick) hrecords rfl hvars (tick.context first)
      rw [Values.length_serializations] at hupdate hle hserved
      exact ⟨s, _, slots', hupdate, hserved, length_recorded _, by rwa [length_recorded],
        recorded_clean _⟩
    · obtain ⟨s, hupdate, hserved⟩ := identicalUpdate_known
        (s := w.serializer.onPreSerializeTick) hrecords hnil hvars (tick.context first)
      rw [Values.length_serializations] at hupdate hserved
      rcases hcase with ⟨hempty, -⟩ | hlen
      · exact absurd hempty hnil
      · exact ⟨s, nodes, slots, hupdate, hserved, hlen, hslots, hclean⟩
  obtain ⟨s, nodes', slots', hupdate, hserved, hlen, hle, hclean'⟩ := hfirst
  have hnodes : nodes' ≠ [] := by
    rintro rfl
    exact hts (List.length_eq_zero_iff.mp hlen.symm)
  obtain ⟨w', hstep, hserved', hcurrent, hvalues, hgot, hothers⟩ := tickStep_first hts w
    hsystems hnodup hnodes (by rw [decide_eq_true hnew]; exact hupdate) hserved
  have hfull : ∀ old : Values ts, receive old
      (layout [] (List.replicate ts.length true) tick.values.serializations) = tick.values := by
    intro old
    have hreceive := receive_layout hts (List.length_replicate (a := true)) tick.values old []
    rw [List.append_nil] at hreceive
    rw [hreceive, Values.merge_all]
  have hall : ∀ system ∈ tick.systems, w'.received system = tick.values := by
    intro system hsystem
    rw [hsystems] at hsystem
    rcases List.mem_cons.mp hsystem with rfl | hsystem
    · rw [hgot, hfull]
    · rw [hothers system hsystem, hfull, ite_self]
  refine ⟨w', hstep, ⟨⟨nodes', slots', hserved'.records, hle, hclean', Or.inr hlen⟩, ?_⟩, hall⟩
  rw [hcurrent, hvalues]
  exact hall

/-- A tick whose first system is not new compares the variables with those recorded: it has no
result where the slip of the tracker leaves the array, and else every system that is not new
keeps what is not written. -/
theorem tick_compare (hts : ts ≠ []) {w : IdenticalWorld System ts} (hinv : Invariant w)
    {tick : Tick System ts} {first : System} {rest : List System}
    (hsystems : tick.systems = first :: rest) (hnodup : tick.systems.Nodup)
    (hold : first ∈ w.current) :
    ∃ nodes slots, w.serializer.Records nodes slots ∧ nodes.length = ts.length ∧
      if lastSizeDiffers nodes tick.values.serializations ∧ slots ≤ nodes.length then
        tickStep (some w) tick = none
      else ∃ w', tickStep (some w) tick = some w' ∧ w'.current = tick.systems ∧
        w'.values = tick.values ∧
        w'.serializer.Records (recorded tick.values.serializations) slots ∧
        nodes.length ≤ slots ∧
        ∀ system ∈ tick.systems, w'.received system = if system ∈ w.current then
          Values.merge (changed nodes tick.values.serializations) tick.values w.values
          else tick.values := by
  have hvars : tick.values.serializations ≠ [] := by
    intro hnil
    have hlen := Values.length_serializations tick.values
    rw [hnil] at hlen
    exact hts (List.length_eq_zero_iff.mp hlen.symm)
  obtain ⟨nodes, slots, hrecords, hslots, hclean, hcase⟩ := hinv.records
  have hlen : nodes.length = ts.length := by
    rcases hcase with ⟨-, hempty⟩ | hlen
    · rw [hempty] at hold
      exact absurd hold List.not_mem_nil
    · exact hlen
  have hcompare := identicalUpdate_compare (s := w.serializer.onPreSerializeTick) hrecords rfl hvars
    (by rw [hlen, Values.length_serializations]) hclean (tick.context first)
  refine ⟨nodes, slots, hrecords, hlen, ?_⟩
  by_cases hfull : lastSizeDiffers nodes tick.values.serializations ∧ slots ≤ nodes.length
  · rw [if_pos hfull] at hcompare ⊢
    rw [tickStep, Option.bind_some, hsystems, serve, decide_eq_false (not_not.mpr hold), hcompare]
    rfl
  · rw [if_neg hfull] at hcompare ⊢
    obtain ⟨s, bs, hupdate, hserved, hstream⟩ := hcompare
    have hnodes : recorded tick.values.serializations ≠ [] := by
      intro hnil
      have hlength := length_recorded tick.values
      rw [hnil] at hlength
      exact hts (List.length_eq_zero_iff.mp hlength.symm)
    obtain ⟨w', hstep, hserved', hcurrent, hvalues, hgot, hothers⟩ := tickStep_first hts w hsystems
      hnodup hnodes (by rw [decide_eq_false (not_not.mpr hold)]; exact hupdate) hserved
    have hflags : (changed nodes tick.values.serializations).length = ts.length := by
      simp [changed, hlen]
    have hreceive : ∀ old : Values ts, receive old bs =
        Values.merge (changed nodes tick.values.serializations) tick.values old := by
      intro old
      rcases hstream with rfl | ⟨rfl, hany⟩
      · have hlayout := receive_layout hts hflags tick.values old []
        rwa [List.append_nil] at hlayout
      · rw [Values.merge_none hany, receive, if_pos rfl]
    refine ⟨w', hstep, hcurrent, hvalues, hserved'.records, hslots, fun system hsystem => ?_⟩
    rw [hsystems] at hsystem
    rcases List.mem_cons.mp hsystem with rfl | hsystem
    · rw [hgot, before, if_pos hold, if_pos hold, hreceive, hinv.current _ hold]
    · rw [hothers system hsystem]
      by_cases hmem : system ∈ w.current
      · rw [if_pos hmem, if_pos hmem, hreceive, hinv.current _ hmem]
      · rw [if_neg hmem, if_neg hmem]

omit [DecidableEq System] in
theorem noReturn_iff {w : IdenticalWorld System ts} {tick : Tick System ts}
    {nodes : List VariableLastValueNode} {slots : ℕ} {first : System} {rest : List System}
    (hsystems : tick.systems = first :: rest) (hold : first ∈ w.current)
    (hrecords : w.serializer.Records nodes slots) (hnodes : nodes ≠ []) :
    NoReturn (some w) tick ↔ keepsValues nodes tick.values w.values ∧
      (lastSizeDiffers nodes tick.values.serializations → nodes.length < slots) := by
  obtain ⟨history, ⟨hguid, hlist⟩, rfl, rfl⟩ := hrecords
  have hmem : w.serializer.remoteSystemVariableHistoryList = [history] := by
    rcases hlist with hlist | ⟨-, rfl⟩
    · exact hlist
    · exact absurd rfl hnodes
  constructor
  · exact fun h => h w rfl first rest hsystems hold history (by simp [hmem]) hguid
  · rintro h w' hw first' rest' hsystems' hold' history' hhistory hguid'
    obtain rfl := Option.some.inj hw
    rw [hmem, List.mem_singleton] at hhistory
    rw [hhistory]
    exact h

theorem tick_spec (hts : ts ≠ []) {w : IdenticalWorld System ts} (hinv : Invariant w)
    {tick : Tick System ts} (hnodup : tick.systems.Nodup) :
    (NoReturn (some w) tick ↔ Current (tickStep (some w) tick) tick) ∧
      ∀ w', tickStep (some w) tick = some w' → Current (some w') tick → Invariant w' := by
  cases hsystems : tick.systems with
  | nil =>
    have hstep : tickStep (some w) tick =
        some ⟨w.serializer.onPreSerializeTick, [], w.received, tick.values⟩ := by
      rw [tickStep, Option.bind_some, hsystems]
      rfl
    rw [hstep]
    refine ⟨⟨fun _ => ⟨_, rfl, fun system h => ?_⟩, fun _ w' hw first rest h => ?_⟩, ?_⟩
    · rw [hsystems] at h
      exact absurd h List.not_mem_nil
    · rw [hsystems] at h
      exact absurd h (by simp)
    · rintro w' hw -
      obtain rfl := Option.some.inj hw
      obtain ⟨nodes, slots, hrecords, hslots, hclean, hcase⟩ := hinv.records
      refine ⟨⟨nodes, slots, hrecords, hslots, hclean, ?_⟩, fun system h => absurd h List.not_mem_nil⟩
      rcases hcase with ⟨hnil, -⟩ | hlen
      · exact Or.inl ⟨hnil, rfl⟩
      · exact Or.inr hlen
  | cons first rest =>
    by_cases hold : first ∈ w.current
    · obtain ⟨nodes, slots, hrecords, hlen, hresult⟩ := tick_compare hts hinv hsystems hnodup hold
      have hnodes : nodes ≠ [] := by
        rintro rfl
        exact hts (List.length_eq_zero_iff.mp hlen.symm)
      rw [noReturn_iff hsystems hold hrecords hnodes]
      by_cases hfull : lastSizeDiffers nodes tick.values.serializations ∧ slots ≤ nodes.length
      · rw [if_pos hfull] at hresult
        rw [hresult]
        refine ⟨⟨fun h => absurd (h.2 hfull.1) (Nat.not_lt.mpr hfull.2), ?_⟩, fun w' hw => ?_⟩
        · rintro ⟨w', hw, -⟩
          cases hw
        · cases hw
      · rw [if_neg hfull] at hresult
        obtain ⟨w', hstep, hcurrent, hvalues, hrecords', hslots, hgot⟩ := hresult
        have hfits : lastSizeDiffers nodes tick.values.serializations → nodes.length < slots := by
          intro hlast
          have hnot : ¬ slots ≤ nodes.length := fun hle => hfull ⟨hlast, hle⟩
          omega
        rw [hstep, ← merge_eq_iff hlen]
        refine ⟨⟨fun h => ⟨w', rfl, fun system hsystem => ?_⟩, ?_⟩, ?_⟩
        · rw [hgot system hsystem, h.1, ite_self]
        · rintro ⟨result, hw, hall⟩
          obtain rfl := Option.some.inj hw
          have hfirst := hall first (by rw [hsystems]; exact List.mem_cons_self)
          rw [hgot first (by rw [hsystems]; exact List.mem_cons_self), if_pos hold] at hfirst
          exact ⟨hfirst, hfits⟩
        · rintro result hw ⟨result', hw', hall⟩
          obtain rfl := Option.some.inj hw
          obtain rfl := Option.some.inj hw'
          refine ⟨⟨_, slots, hrecords', by rw [length_recorded]; omega, recorded_clean _,
            Or.inr (length_recorded _)⟩, ?_⟩
          rw [hcurrent, hvalues]
          exact hall
    · obtain ⟨w', hstep, hinv', hall⟩ := tick_new hts hinv hsystems hnodup hold
      rw [hstep]
      refine ⟨⟨fun _ => ⟨w', rfl, hall⟩, ?_⟩, ?_⟩
      · rintro - result hw first' rest' hsystems' hold'
        obtain rfl := Option.some.inj hw
        rw [hsystems] at hsystems'
        obtain ⟨rfl, -⟩ := List.cons.inj hsystems'
        exact absurd hold' hold
      · rintro result hw -
        obtain rfl := Option.some.inj hw
        exact hinv'

omit [DecidableEq System] in
theorem invariant_start (joining : System → Values ts) (values : Values ts) :
    Invariant (start joining values) :=
  ⟨⟨[], 0, records_new, Nat.le_refl _, fun _ h => absurd h List.not_mem_nil, Or.inl ⟨rfl, rfl⟩⟩,
    fun _ h => absurd h List.not_mem_nil⟩

theorem tickStep_nil (w : IdenticalWorld System []) (tick : Tick System []) :
    ∃ w', tickStep (some w) tick = some w' := by
  have hserve : ∀ systems s received, ∃ result,
      serve tick w.current systems s received = some result := by
    intro systems
    induction systems with
    | nil => exact fun s received => ⟨_, rfl⟩
    | cons system rest ih => exact fun s received => ih _ _
  obtain ⟨result, hresult⟩ := hserve tick.systems w.serializer.onPreSerializeTick w.received
  exact ⟨_, by rw [tickStep, Option.bind_some, hresult]; rfl⟩

theorem run_nil (ticks : List (Tick System [])) (w : IdenticalWorld System []) :
    ∃ w', ticks.foldl tickStep (some w) = some w' := by
  induction ticks generalizing w with
  | nil => exact ⟨w, rfl⟩
  | cons tick rest ih =>
    obtain ⟨w', hstep⟩ := tickStep_nil w tick
    rw [List.foldl_cons, hstep]
    exact ih w'

/-- The receivers hold the values of the sender after every tick, exactly if in every tick with an
old system in front no variable has gone back to its recorded value. -/
theorem receivers_current_iff (joining : System → Values ts) (values : Values ts)
    (ticks : List (Tick System ts)) (hnodup : ∀ tick ∈ ticks, tick.systems.Nodup) :
    (∀ pre tick post, ticks = pre ++ tick :: post →
      Current ((pre ++ [tick]).foldl tickStep (some (start joining values))) tick) ↔
    Transition.Along tickStep NoReturn (some (start joining values)) ticks := by
  cases ts with
  | nil =>
    constructor
    · rintro - pre tick post - w' - first rest - - history - -
      refine ⟨trivial, fun hlast => ?_⟩
      cases hnodes : history.variableListDeltaTracker.variableList with
      | nil => rw [hnodes] at hlast; cases hlast
      | cons node nodes => rw [hnodes] at hlast; cases nodes <;> cases hlast
    · rintro - pre tick post -
      obtain ⟨w', hrun⟩ := run_nil (pre ++ [tick]) (start joining values)
      exact ⟨w', hrun, fun _ _ => rfl⟩
  | cons t ts =>
    have hts : t :: ts ≠ [] := List.cons_ne_nil t ts
    have hstep : ∀ pre tick, (pre ++ [tick]).foldl tickStep (some (start joining values)) =
        tickStep (pre.foldl tickStep (some (start joining values))) tick := by
      intro pre tick
      rw [List.foldl_append]
      rfl
    have hspec : ∀ pre tick post, ticks = pre ++ tick :: post →
        (∃ w, pre.foldl tickStep (some (start joining values)) = some w ∧ Invariant w) →
        (NoReturn (pre.foldl tickStep (some (start joining values))) tick ↔
          Current (tickStep (pre.foldl tickStep (some (start joining values))) tick) tick) ∧
        (Current (tickStep (pre.foldl tickStep (some (start joining values))) tick) tick →
          ∃ w, tickStep (pre.foldl tickStep (some (start joining values))) tick = some w ∧
            Invariant w) := by
      rintro pre tick post heq ⟨w, hw, hinv⟩
      rw [hw]
      obtain ⟨hiff, hkeep⟩ := tick_spec hts hinv (hnodup tick (by simp [heq]))
      refine ⟨hiff, fun hcurrent => ?_⟩
      obtain ⟨w', hw', hall⟩ := hcurrent
      exact ⟨w', hw', hkeep w' hw' ⟨w', rfl, hall⟩⟩
    constructor
    · intro hcurrent pre tick post heq
      have hinv : ∀ pre post, ticks = pre ++ post →
          ∃ w, pre.foldl tickStep (some (start joining values)) = some w ∧ Invariant w := by
        refine Transition.run_prefix (fun _ state => ∃ w, state = some w ∧ Invariant w)
          ⟨_, rfl, invariant_start joining values⟩ fun pre tick post heq hw => ?_
        have hnow := hcurrent pre tick post heq
        rw [hstep] at hnow
        exact (hspec pre tick post heq hw).2 hnow
      have hnow := hcurrent pre tick post heq
      rw [hstep] at hnow
      exact (hspec pre tick post heq (hinv pre _ heq)).1.mpr hnow
    · intro halong pre tick post heq
      have hinv : ∀ pre post, ticks = pre ++ post →
          ∃ w, pre.foldl tickStep (some (start joining values)) = some w ∧ Invariant w := by
        refine Transition.run_prefix (fun _ state => ∃ w, state = some w ∧ Invariant w)
          ⟨_, rfl, invariant_start joining values⟩ fun pre tick post heq hw => ?_
        have hboth := hspec pre tick post heq hw
        exact hboth.2 (hboth.1.mp (halong pre tick post heq))
      rw [hstep]
      exact (hspec pre tick post heq (hinv pre _ heq)).1.mp (halong pre tick post heq)

/-- `BitStream::Write(bool)` and `BitStream::Read(bool)` -/
def boolType : VariableType where
  Value := Bool
  write value _ := [value]
  read _ unread := match unread with
    | [] => none
    | value :: rest => some (value, rest)
  read_write _ _ _ := rfl

def flagValues (flag : Bool) : Values [boolType] := (flag, ())

/-- A tick with one flag for these systems. -/
def flagTick (systems : List ℕ) (flag : Bool) : Tick ℕ [boolType] where
  systems := systems
  values := flagValues flag
  context _ := ⟨.unassigned, [], 0, none, none, ⟨0, 0, fun _ => 0⟩, 0, .reliable, false, false⟩
  joining _ := flagValues false

def flagStart : IdenticalWorld ℕ [boolType] := start (fun _ => flagValues false) (flagValues false)

/-- System 1 joins behind system 0, which is told of the change. -/
theorem joining_behind_current :
    Current ([flagTick [0] false, flagTick [0, 1] true].foldl tickStep (some flagStart))
      (flagTick [0, 1] true) := by
  refine (receivers_current_iff (fun _ => flagValues false) (flagValues false)
    [flagTick [0] false, flagTick [0, 1] true] (by decide)).mpr ?_ [flagTick [0] false] _ [] rfl
  refine Transition.along_cons ?_ (Transition.along_cons ?_ Transition.along_nil)
  · rintro w' hw first rest - hfirst
    obtain rfl := Option.some.inj hw
    exact absurd hfirst List.not_mem_nil
  · rintro w' hw first rest - - history hhistory -
    have hlists : (tickStep (some flagStart) (flagTick [0] false)).map (fun w =>
        w.serializer.remoteSystemVariableHistoryList.map fun history =>
          history.variableListDeltaTracker) =
        some [⟨[⟨List.replicate 8 false, false⟩], 16, 1⟩] := rfl
    have hw' : (tickStep (some flagStart) (flagTick [0] false)) = some w' := hw
    rw [hw', Option.map_some, Option.some_inj] at hlists
    have htracker : history.variableListDeltaTracker = ⟨[⟨List.replicate 8 false, false⟩], 16, 1⟩ := by
      have hmem := List.mem_map_of_mem (f := fun h => h.variableListDeltaTracker) hhistory
      rw [hlists] at hmem
      exact List.mem_singleton.mp hmem
    rw [htracker]
    exact ⟨⟨fun h => absurd h (by decide), trivial⟩, by decide⟩

/-- System 1 joins in front of system 0 with a change, and the flag goes back in the next tick. -/
theorem joining_in_front_stale :
    ¬ ∀ (joining : ℕ → Values [boolType]) (values : Values [boolType])
      (ticks : List (Tick ℕ [boolType])), (∀ tick ∈ ticks, tick.systems.Nodup) →
      ∀ pre tick post, ticks = pre ++ tick :: post →
        Current ((pre ++ [tick]).foldl tickStep (some (start joining values))) tick := by
  intro hclaim
  obtain ⟨w, hw, hall⟩ := hclaim (fun _ => flagValues false) (flagValues false)
    [flagTick [0] false, flagTick [1, 0] true, flagTick [0, 1] false] (by decide)
    [flagTick [0] false, flagTick [1, 0] true] _ [] rfl
  have hstale : (([flagTick [0] false, flagTick [1, 0] true] ++ [flagTick [0, 1] false]).foldl
      tickStep (some flagStart)).map (fun w => w.received 0) = some (flagValues true) := rfl
  have hw' : ([flagTick [0] false, flagTick [1, 0] true] ++ [flagTick [0, 1] false]).foldl
      tickStep (some flagStart) = some w := hw
  rw [hw', Option.map_some, hall 0 (by decide)] at hstale
  exact Bool.false_ne_true (congrArg Prod.fst (Option.some.inj hstale))

end IdenticalWorld

end SLikeNet
