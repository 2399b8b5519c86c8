import Mathlib.Data.List.Basic

/-! `Receive`: the packets of the queue, each offered to the thread-safe plugins and to the others,
until one of them is left for the user. -/

namespace SLikeNet

inductive PluginReceiveResult
  | stopProcessingAndDeallocate
  | continueProcessing
  | stopProcessing
deriving DecidableEq

/-- What `Receive` does with the packets, which are `none` where the pointer is null. -/
inductive ReceiveEvent (P α : Type*)
  | onReceive (plugin : P) (packet : Option α)
  | deallocatePacket (packet : Option α)
deriving DecidableEq

/-- The plugins in the order in which they were attached, the thread-safe ones and those that use
the reliability layer, and what they answer in a state of the program. -/
structure Plugins (P α σ : Type*) where
  pluginListTS : List P
  pluginListNTS : List P
  onReceive : P → Option α → σ → PluginReceiveResult × σ
  /-- The shift of a timestamp, and `CallPluginCallbacks` of both lists. -/
  beforeReceive : α → σ → σ

/-- What is left of the packet after some plugins. -/
structure Offer (P α σ : Type*) where
  packet : Option α
  events : List (ReceiveEvent P α)
  state : σ

/-- What `Receive` returns, what it did, and what is left of the queue. -/
structure ReceiveResult (P α σ : Type*) where
  packet : Option α
  events : List (ReceiveEvent P α)
  packetReturnQueue : List α
  state : σ

namespace Plugins

variable {P α σ : Type*} (plugins : Plugins P α σ)

/-- The loop over one of the lists. -/
def offer : List P → Option α → σ → Offer P α σ
  | [], packet, s => ⟨packet, [], s⟩
  | plugin :: list, packet, s =>
    match plugins.onReceive plugin packet s with
    | (.stopProcessingAndDeallocate, s) =>
      ⟨none, [.onReceive plugin packet, .deallocatePacket packet], s⟩
    | (.stopProcessing, s) => ⟨none, [.onReceive plugin packet], s⟩
    | (.continueProcessing, s) =>
      let rest := offer list packet s
      { rest with events := .onReceive plugin packet :: rest.events }

/-- `Receive`, one round for every packet of the queue. -/
def receive : List α → σ → ReceiveResult P α σ
  | [], s => ⟨none, [], [], s⟩
  | packet :: packetReturnQueue, s =>
    let first := plugins.offer plugins.pluginListTS (some packet) (plugins.beforeReceive packet s)
    -- the second loop also runs, without a packet, where the first one stopped it
    let second := plugins.offer plugins.pluginListNTS first.packet first.state
    match second.packet with
    | some packet => ⟨some packet, first.events ++ second.events, packetReturnQueue, second.state⟩
    | none =>
      let rest := receive packetReturnQueue second.state
      { rest with events := first.events ++ second.events ++ rest.events }

/-! ### What is meant -/

/-- A packet is offered to one plugin after the other up to the first that stops it, and then
deallocated where that plugin asks for it. -/
inductive Offered (packet : α) : List P → σ → List (ReceiveEvent P α) → σ → Bool → Prop
  | through {s : σ} : Offered packet [] s [] s true
  | next {plugin : P} {list : List P} {s s' s'' : σ} {events : List (ReceiveEvent P α)}
      {isThrough : Bool} :
      plugins.onReceive plugin (some packet) s = (.continueProcessing, s') →
      Offered packet list s' events s'' isThrough →
      Offered packet (plugin :: list) s (.onReceive plugin (some packet) :: events) s'' isThrough
  | stop {plugin : P} {list : List P} {s s' : σ} :
      plugins.onReceive plugin (some packet) s = (.stopProcessing, s') →
      Offered packet (plugin :: list) s [.onReceive plugin (some packet)] s' false
  | stopAndDeallocate {plugin : P} {list : List P} {s s' : σ} :
      plugins.onReceive plugin (some packet) s = (.stopProcessingAndDeallocate, s') →
      Offered packet (plugin :: list) s
        [.onReceive plugin (some packet), .deallocatePacket (some packet)] s' false

/-- Every packet is offered to all plugins, the thread-safe ones first, and the first one that
comes through is returned. -/
inductive ReceivesInOrder : List α → σ → ReceiveResult P α σ → Prop
  | empty {s : σ} : ReceivesInOrder [] s ⟨none, [], [], s⟩
  | returned {packet : α} {packetReturnQueue : List α} {s s' : σ}
      {events : List (ReceiveEvent P α)} :
      plugins.Offered packet (plugins.pluginListTS ++ plugins.pluginListNTS)
        (plugins.beforeReceive packet s) events s' true →
      ReceivesInOrder (packet :: packetReturnQueue) s ⟨some packet, events, packetReturnQueue, s'⟩
  | stopped {packet : α} {packetReturnQueue : List α} {s s' : σ}
      {events : List (ReceiveEvent P α)} {rest : ReceiveResult P α σ} :
      plugins.Offered packet (plugins.pluginListTS ++ plugins.pluginListNTS)
        (plugins.beforeReceive packet s) events s' false →
      ReceivesInOrder packetReturnQueue s' rest →
      ReceivesInOrder (packet :: packetReturnQueue) s { rest with events := events ++ rest.events }

/-- No packet that is taken from the queue is stopped by a thread-safe plugin. -/
def PassesThreadSafe : List α → σ → Prop
  | [], _ => True
  | packet :: packetReturnQueue, s =>
    let first := plugins.offer plugins.pluginListTS (some packet) (plugins.beforeReceive packet s)
    let second := plugins.offer plugins.pluginListNTS first.packet first.state
    first.packet ≠ none ∧ (second.packet = none → PassesThreadSafe packetReturnQueue second.state)

/-! ### One list -/

variable {plugins}

variable (plugins) in
theorem offered_offer (packet : α) (list : List P) (s : σ) :
    plugins.Offered packet list s (plugins.offer list (some packet) s).events
        (plugins.offer list (some packet) s).state
        (plugins.offer list (some packet) s).packet.isSome ∧
      ∀ p, (plugins.offer list (some packet) s).packet = some p → p = packet := by
  induction list generalizing s with
  | nil => exact ⟨.through, fun p hp => (Option.some.inj hp).symm⟩
  | cons plugin list ih =>
    rw [offer]
    obtain ⟨⟨result, s'⟩, hresult⟩ : ∃ r, plugins.onReceive plugin (some packet) s = r := ⟨_, rfl⟩
    rw [hresult]
    cases result with
    | stopProcessingAndDeallocate => exact ⟨.stopAndDeallocate hresult, nofun⟩
    | continueProcessing => exact ⟨.next hresult (ih s').1, (ih s').2⟩
    | stopProcessing => exact ⟨.stop hresult, nofun⟩

theorem Offered.append {packet : α} {list list' : List P} {s s' s'' : σ}
    {events events' : List (ReceiveEvent P α)} {isThrough : Bool}
    (h : plugins.Offered packet list s events s' true)
    (h' : plugins.Offered packet list' s' events' s'' isThrough) :
    plugins.Offered packet (list ++ list') s (events ++ events') s'' isThrough := by
  generalize hthrough : true = through at h
  induction h with
  | through => exact h'
  | next hcontinue _ ih => exact .next hcontinue (ih h' hthrough)
  | stop _ => cases hthrough
  | stopAndDeallocate _ => cases hthrough

theorem Offered.packet_eq {packet : α} {list : List P} {s s' : σ}
    {events : List (ReceiveEvent P α)} {isThrough : Bool}
    (h : plugins.Offered packet list s events s' isThrough) (plugin : P) :
    .onReceive plugin none ∉ events := by
  induction h with
  | through => simp
  | next _ _ ih => simpa using ih
  | stop _ => simp
  | stopAndDeallocate _ => simp

theorem ReceivesInOrder.packet_eq {packetReturnQueue : List α} {s : σ}
    {received : ReceiveResult P α σ}
    (h : plugins.ReceivesInOrder packetReturnQueue s received) (plugin : P) :
    .onReceive plugin none ∉ received.events := by
  induction h with
  | empty => simp
  | returned hoffered => exact hoffered.packet_eq plugin
  | stopped hoffered _ ih =>
    rw [List.mem_append, not_or]
    exact ⟨hoffered.packet_eq plugin, ih⟩

variable (plugins) in
theorem onReceive_mem_offer (plugin : P) (list : List P) (packet : Option α) (s : σ) :
    .onReceive plugin packet ∈ (plugins.offer (plugin :: list) packet s).events := by
  rw [offer]
  obtain ⟨⟨result, s'⟩, hresult⟩ : ∃ r, plugins.onReceive plugin packet s = r := ⟨_, rfl⟩
  rw [hresult]
  cases result <;> simp

/-! ### `Receive` -/

/-- Induction on the queue: while nothing is stopped by the thread-safe plugins, or there are no
others, the two loops are one. -/
theorem receivesInOrder_receive {packetReturnQueue : List α} {s : σ}
    (h : plugins.pluginListNTS = [] ∨ plugins.PassesThreadSafe packetReturnQueue s) :
    plugins.ReceivesInOrder packetReturnQueue s (plugins.receive packetReturnQueue s) := by
  induction packetReturnQueue generalizing s with
  | nil => exact .empty
  | cons packet packetReturnQueue ih =>
    obtain ⟨hoffered, hsame⟩ := offered_offer plugins packet plugins.pluginListTS
      (plugins.beforeReceive packet s)
    rw [PassesThreadSafe] at h
    rw [receive]
    dsimp only at h ⊢
    generalize plugins.offer plugins.pluginListTS (some packet) (plugins.beforeReceive packet s) =
      first at hoffered hsame h ⊢
    obtain ⟨left, events, s'⟩ := first
    cases left with
    | none =>
      have hnil : plugins.pluginListNTS = [] := h.resolve_right fun hpasses => hpasses.1 rfl
      rw [hnil, offer]
      dsimp only
      rw [List.append_nil]
      refine .stopped ?_ (ih (.inl hnil))
      rwa [hnil, List.append_nil]
    | some p =>
      obtain rfl : p = packet := hsame p rfl
      obtain ⟨hoffered', hsame'⟩ := offered_offer plugins p plugins.pluginListNTS s'
      dsimp only at h ⊢
      generalize plugins.offer plugins.pluginListNTS (some p) s' = second at hoffered' hsame' h ⊢
      obtain ⟨left', events', s''⟩ := second
      have hboth := hoffered.append hoffered'
      cases left' with
      | none => exact .stopped hboth (ih (h.imp_right fun hpasses => hpasses.2 rfl))
      | some p' =>
        obtain rfl : p' = p := hsame' p' rfl
        exact .returned hboth

theorem called_without_packet {packetReturnQueue : List α} {s : σ} {plugin : P} {list : List P}
    (hlist : plugins.pluginListNTS = plugin :: list)
    (h : ¬ plugins.PassesThreadSafe packetReturnQueue s) :
    .onReceive plugin none ∈ (plugins.receive packetReturnQueue s).events := by
  induction packetReturnQueue generalizing s with
  | nil => exact absurd trivial h
  | cons packet packetReturnQueue ih =>
    rw [PassesThreadSafe] at h
    rw [receive]
    dsimp only at h ⊢
    generalize plugins.offer plugins.pluginListTS (some packet) (plugins.beforeReceive packet s) =
      first at h ⊢
    obtain ⟨left, events, s'⟩ := first
    have hcalled := onReceive_mem_offer plugins plugin list left s'
    rw [← hlist] at hcalled
    dsimp only at h ⊢
    generalize plugins.offer plugins.pluginListNTS left s' = second at hcalled h ⊢
    obtain ⟨left', events', s''⟩ := second
    dsimp only at hcalled
    cases left with
    | none =>
      cases left' with
      | none => exact List.mem_append_left _ (List.mem_append_right _ hcalled)
      | some p => exact List.mem_append_right _ hcalled
    | some p =>
      cases left' with
      | none =>
        refine List.mem_append_right _ (ih fun hpasses => h ⟨nofun, fun _ => hpasses⟩)
      | some p' => exact absurd ⟨nofun, nofun⟩ h

/-- `Receive` offers the packets in order exactly if there are no plugins but thread-safe ones, or
none of these stops a packet. -/
theorem receivesInOrder_iff (plugins : Plugins P α σ) (packetReturnQueue : List α) (s : σ) :
    plugins.ReceivesInOrder packetReturnQueue s (plugins.receive packetReturnQueue s) ↔
      plugins.pluginListNTS = [] ∨ plugins.PassesThreadSafe packetReturnQueue s := by
  refine ⟨fun h => ?_, receivesInOrder_receive⟩
  by_contra hcon
  rw [not_or] at hcon
  obtain ⟨plugin, list, hlist⟩ := List.exists_cons_of_ne_nil hcon.1
  exact h.packet_eq plugin (called_without_packet hlist hcon.2)

/-- The thread-safe plugin stops the only packet, and the other one is called without one. -/
def stopping : Plugins Bool ℕ Unit where
  pluginListTS := [true]
  pluginListNTS := [false]
  onReceive plugin _ s := (if plugin then .stopProcessing else .continueProcessing, s)
  beforeReceive _ s := s

theorem stopped_packet_offered :
    ¬ ∀ (plugins : Plugins Bool ℕ Unit) (packetReturnQueue : List ℕ) (s : Unit),
      plugins.ReceivesInOrder packetReturnQueue s (plugins.receive packetReturnQueue s) := by
  intro h
  exact (h stopping [0] ()).packet_eq false (by decide)

end Plugins

end SLikeNet
