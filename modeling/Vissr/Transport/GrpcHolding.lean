import Vissr.Transport.GrpcCalls

/-! The entries that the calls of the gRPC manager hold. -/

namespace Vissr.Transport.Grpc

open List Tables

/-- The call that the messages for a client id go to. -/
def Tables.holder (t : Tables) (id : Int) : Option Nat :=
  if id < 0 then none
  else (t.entry id).bind fun i => (t.grpcRoutingDataList.get i).grpcRespChannel

def Tables.Holds (t : Tables) (h : Nat) : Prop := ∃ i, (t.grpcRoutingDataList.get i).clientId ≠ -1 ∧
    (t.grpcRoutingDataList.get i).grpcRespChannel = some h

/-- No two entries, be they free or not, are of one call. -/
def Tables.Once (t : Tables) : Prop :=
  ∀ i j h, (t.grpcRoutingDataList.get i).grpcRespChannel = some h →
    (t.grpcRoutingDataList.get j).grpcRespChannel = some h → i = j

variable {t t' : Tables} {allocated : Option Int} {id : Int} {h : Nat}

theorem Tables.holder_eq_some : t.holder id = some h ↔ 0 ≤ id ∧ ∃ i, t.entry id = some i ∧
      (t.grpcRoutingDataList.get i).grpcRespChannel = some h := by
  rw [holder]
  split_ifs with negative
  · constructor
    · nofun
    · intro both
      omega
  · rw [Option.bind_eq_some_iff]
    exact (and_iff_right (Int.not_lt.mp negative)).symm

theorem Tables.Holds.of_holder (found : t.holder id = some h) : t.Holds h := by
  obtain ⟨given, i, entry, channel⟩ := holder_eq_some.mp found
  refine ⟨i, ?_, channel⟩
  rw [entry_eq_some entry]
  omega

theorem holds_reset_iff (once : t.Once) (reset : t.resetGrpcRoutingData id = some t') :
    t'.Holds h ↔ t.Holds h ∧ t.holder id ≠ some h := by
  constructor
  · intro holds
    obtain ⟨i, used, channel⟩ := holds
    rw [get_reset reset] at used channel
    split_ifs at used channel with freed
    · exact absurd rfl used
    · refine ⟨⟨i, used, channel⟩, ?_⟩
      intro found
      obtain ⟨given, j, entry, same⟩ := holder_eq_some.mp found
      rw [once j i h same channel] at entry
      exact freed ⟨given, entry⟩
  · intro both
    obtain ⟨⟨i, used, channel⟩, other⟩ := both
    have kept : ¬ (0 ≤ id ∧ t.entry id = some i) := by
      intro freed
      exact other (holder_eq_some.mpr ⟨freed.1, i, freed.2, channel⟩)
    refine ⟨i, ?_, ?_⟩
    · rw [get_reset reset, if_neg kept]
      exact used
    · rw [get_reset reset, if_neg kept]
      exact channel

theorem holds_update_iff (subId : Str) :
    (t.updateGrpcRoutingData id subId).Holds h ↔ t.Holds h := by
  apply exists_congr
  intro i
  rw [get_update]
  split_ifs <;> exact Iff.rfl

theorem Tables.Holds.set (holds : t.Holds h) (channel : Option Nat) (multiple : Bool) :
    (t.setGrpcRoutingData id channel multiple).1.Holds h := by
  obtain ⟨i, used, same⟩ := holds
  have kept : t.entry (-1) ≠ some i := fun found => used (entry_eq_some found)
  refine ⟨i, ?_, ?_⟩
  · rw [get_set, if_neg kept]
    exact used
  · rw [get_set, if_neg kept]
    exact same

theorem Tables.channel_update (t : Tables) (id : Int) (subId : Str)
    (i : Fin maxGrpcClients) :
    ((t.updateGrpcRoutingData id subId).grpcRoutingDataList.get i).grpcRespChannel =
      (t.grpcRoutingDataList.get i).grpcRespChannel := by
  rw [get_update]
  split_ifs <;> rfl

theorem Tables.Once.set (once : t.Once)
    (fresh : ∀ i, (t.grpcRoutingDataList.get i).grpcRespChannel ≠ some h) (multiple : Bool) :
    (t.setGrpcRoutingData id (some h) multiple).1.Once := by
  intro i j g first second
  rw [get_set] at first second
  split_ifs at first second with here there there
  · exact Option.some.inj (here.symm.trans there)
  · cases first
    exact absurd second (fresh j)
  · cases second
    exact absurd first (fresh i)
  · exact once i j g first second

section Reachable

def Hub.allocatedId : Hub → Option Int
  | .allocated _ clientId => some clientId
  | _ => none

def Stage.handedIn : Stage → Bool
  | .unsubscribing _ | .killing _ _ | .requesting => false
  | _ => true

/-- Only a stream comes to the stage. -/
def Stage.ofStream : Stage → Bool
  | .received _ _ | .forwarding _ | .closing _ => true
  | _ => false

def State.HandedIn (s : State) (h : Nat) : Prop :=
  ∃ call, s.calls[h]? = some call ∧ call.stage.handedIn = true

structure Held (s : State) : Prop where
  agree : Agree s.tables s.hub.allocatedId
  once : s.tables.Once
  entered (i : Fin maxGrpcClients) (h : Nat) :
    (s.tables.grpcRoutingDataList.get i).grpcRespChannel = some h → s.HandedIn h
  allocated (h : Nat) (id : Int) : s.hub = .allocated h id → s.HandedIn h ∧
    ∀ i, (s.tables.grpcRoutingDataList.get i).grpcRespChannel ≠ some h
  located (channel : Nat) (multiple : Bool) (id : Int) (response : Str) (delivery : Delivery) :
    s.hub = .located channel multiple id response delivery →
      ∀ i, ((s.tables.grpcRoutingDataList.get i).grpcRespChannel = some channel →
          (s.tables.grpcRoutingDataList.get i).clientId = id ∨
            (s.tables.grpcRoutingDataList.get i).clientId = -1) ∧
        (0 ≤ id → (s.tables.grpcRoutingDataList.get i).clientId = id →
          (s.tables.grpcRoutingDataList.get i).grpcRespChannel = some channel)
  streams (i : Nat) (call : Call) : s.calls[i]? = some call → call.stage.ofStream = true →
    call.kind = .stream

variable {s s' : State} {event : Event}

theorem held_start : Held {} where
  agree := agree_start
  once := by
    intro i j h first
    rw [Slots.get_replicate] at first
    cases first
  entered := by
    intro i h channel
    rw [Slots.get_replicate] at channel
    cases channel
  allocated := by
    intro h id hub
    cases hub
  located := by
    intro channel multiple id response delivery hub
    cases hub
  streams := by
    intro i call here
    cases here

variable {i : Nat} {call next : Call} {clientId id : Int} {multiple : Bool} {t t' : Tables}

theorem HandedIn.set (handed : s.HandedIn h) (here : s.calls[i]? = some call)
    (changed : s'.calls = s.calls.set i next)
    (on : call.stage.handedIn = true → next.stage.handedIn = true) : s'.HandedIn h := by
  obtain ⟨other, there, past⟩ := handed
  rw [State.HandedIn, changed]
  by_cases same : i = h
  · subst same
    rw [here] at there
    cases there
    exact ⟨next, List.getElem?_set_self (List.getElem?_eq_some_iff.mp here).1, on past⟩
  · exact ⟨other, (getElem?_set_ne same).trans there, past⟩

theorem streams_set {j : Nat} {other : Call} (held : Held s) (here : s.calls[i]? = some call)
    (there : (s.calls.set i next)[j]? = some other) (late : other.stage.ofStream = true)
    (same : next.kind = call.kind)
    (on : next.stage.ofStream = true → call.stage.ofStream = true ∨ call.kind = .stream) :
    other.kind = .stream := by
  obtain ⟨rfl, rfl⟩ | ⟨-, there⟩ := getElem?_set_cases there
  · rw [same]
    obtain before | stream := on late
    · exact held.streams i call here before
    · exact stream
  · exact held.streams j other there late

theorem Moves.handedIn {stage : Stage} (moves : Moves s i call event stage)
    (past : call.stage.handedIn = true) : stage.handedIn = true := by
  cases moves with
  | missed before | found before | gaveUp before =>
    rw [before] at past
    cases past
  | done | failed | learned | sent => rfl

theorem Moves.ofStream {stage : Stage} (moves : Moves s i call event stage)
    (late : stage.ofStream = true) : call.stage.ofStream = true ∨ call.kind = .stream := by
  cases moves with
  | missed | found | gaveUp | failed | sent => cases late
  | done stream => exact .inr stream
  | learned before =>
    left
    rw [before]
    rfl

theorem Call.receive_spec {delivery : Delivery} (received : call.receive delivery = some next) :
    next.kind = call.kind ∧ next.stage.handedIn = true ∧
      (next.stage.ofStream = true → call.kind = .stream) := by
  rw [Call.receive.eq_def] at received
  split at received
  · cases received
    exact ⟨rfl, rfl, by rintro ⟨⟩⟩
  · next kind stage =>
    cases received
    exact ⟨rfl, rfl, fun _ => kind⟩
  · cases received

theorem Change.handedIn (change : Change s event s') (handed : s.HandedIn h) : s'.HandedIn h := by
  cases change with
  | began =>
    obtain ⟨other, there, past⟩ := handed
    have inside := (List.getElem?_eq_some_iff.mp there).1
    exact ⟨other, (getElem?_append_left inside).trans there, past⟩
  | moved i call here moves => exact HandedIn.set handed here rfl moves.handedIn
  | freed i call here | took i call idle here => exact HandedIn.set handed here rfl fun _ => rfl
  | killed i call clientId channel other next here stage there received =>
    have between : ({ s with calls := s.calls.set channel next } : State).HandedIn h :=
      HandedIn.set handed there rfl fun _ => (Call.receive_spec received).2.1
    refine HandedIn.set between (killed_middle here stage there received) rfl ?_
    intro past
    rw [stage] at past
    cases past
  | entered | unknown | located | updated => exact handed
  | delivered channel delivery call next hub here received =>
    exact HandedIn.set handed here rfl fun _ => (Call.receive_spec received).2.1

theorem Held.streams_step (held : Held s) (change : Change s event s') (j : Nat) (other : Call)
    (there : s'.calls[j]? = some other) (late : other.stage.ofStream = true) :
    other.kind = .stream := by
  cases change with
  | began call fresh =>
    obtain there | ⟨-, rfl⟩ := getElem?_concat_cases there
    · exact held.streams j other there late
    · rw [Call.begins.eq_def] at fresh
      split at fresh
      · next stage =>
        rw [stage] at late
        cases late
      · next stage =>
        rw [stage] at late
        cases late
      · cases fresh
  | moved i call here moves => exact streams_set held here there late rfl moves.ofStream
  | freed i call here | took i call idle here => exact streams_set held here there late rfl nofun
  | killed i call clientId channel receiver next here stage before received =>
    have spec := Call.receive_spec received
    obtain ⟨-, rfl⟩ | ⟨-, there⟩ := getElem?_set_cases there
    · cases late
    · exact streams_set held before there late spec.1 fun late => .inr (spec.2.2 late)
  | entered | unknown | located | updated => exact held.streams j other there late
  | delivered channel delivery call next hub here received =>
    have spec := Call.receive_spec received
    exact streams_set held here there late spec.1 fun late => .inr (spec.2.2 late)

theorem Held.of_tables (held : Held s) (change : Change s event s') (hub : s'.hub = s.hub)
    (agree : Agree s'.tables s.hub.allocatedId)
    (same : ∀ i, (s'.tables.grpcRoutingDataList.get i).grpcRespChannel =
      (s.tables.grpcRoutingDataList.get i).grpcRespChannel)
    (fewer : ∀ i, (s'.tables.grpcRoutingDataList.get i).clientId =
        (s.tables.grpcRoutingDataList.get i).clientId ∨
      (s'.tables.grpcRoutingDataList.get i).clientId = -1) : Held s' where
  agree := by
    rw [hub]
    exact agree
  once := by
    intro i j h first second
    rw [same] at first second
    exact held.once i j h first second
  entered := by
    intro i h channel
    rw [same] at channel
    exact change.handedIn (held.entered i h channel)
  allocated := by
    intro h id allocated
    rw [hub] at allocated
    obtain ⟨handed, fresh⟩ := held.allocated h id allocated
    refine ⟨change.handedIn handed, ?_⟩
    intro i
    rw [same]
    exact fresh i
  located := by
    intro channel multiple id response delivery located
    rw [hub] at located
    intro i
    obtain ⟨own, there⟩ := held.located channel multiple id response delivery located i
    rw [same]
    constructor
    · intro mine
      obtain kept | gone := fewer i
      · rw [kept]
        exact own mine
      · exact .inr gone
    · intro given here
      obtain kept | gone := fewer i
      · rw [kept] at here
        exact there given here
      · omega
  streams := held.streams_step change

theorem routing_getClientId (t : Tables) :
    t.getClientId.1.grpcRoutingDataList = t.grpcRoutingDataList := by
  rw [getClientId]
  split <;> rfl

theorem Held.took (held : Held s) (idle : s.hub = .idle) (here : s.calls[i]? = some call)
    (stage : call.stage = .requesting) : Held {
      tables := s.tables.getClientId.1
      hub :=
        if s.tables.getClientId.2 = -1 then .sending i ⟨maxClientsText, .full⟩
        else .allocated i s.tables.getClientId.2
      calls := s.calls.set i { call with stage := .waiting (-1) } } where
  agree := by
    have before := held.agree
    rw [idle] at before
    have after : Agree s.tables.getClientId.1
        (if s.tables.getClientId.2 = -1 then none else some s.tables.getClientId.2) :=
      before.getClientId rfl
    split_ifs at after ⊢ with full
    · exact after
    · exact after
  once := by
    intro j k h
    rw [routing_getClientId]
    exact held.once j k h
  entered := by
    intro j h
    rw [routing_getClientId]
    intro channel
    exact (Change.took i call idle here stage).handedIn (held.entered j h channel)
  allocated := by
    intro h id allocated
    simp only at allocated
    split_ifs at allocated
    cases allocated
    constructor
    · exact ⟨_, List.getElem?_set_self (List.getElem?_eq_some_iff.mp here).1, rfl⟩
    · intro j channel
      rw [routing_getClientId] at channel
      obtain ⟨same, there, past⟩ := held.entered j i channel
      rw [here] at there
      cases there
      rw [stage] at past
      cases past
  located := by
    intro channel multiple id response delivery located
    simp only at located
    split_ifs at located
  streams := held.streams_step (Change.took i call idle here stage)

theorem Held.entered_step (held : Held s) (multiple : Bool) (hub : s.hub = .allocated i clientId) :
    Held { s with
      tables := (s.tables.setGrpcRoutingData clientId (some i) multiple).1
      hub := .idle } where
  agree := by
    have before := held.agree
    rw [hub] at before
    exact before.setGrpcRoutingData (some i) multiple
  once := held.once.set (held.allocated i clientId hub).2 multiple
  entered := by
    intro j h channel
    rw [get_set] at channel
    split_ifs at channel
    · cases channel
      exact (held.allocated i clientId hub).1
    · exact held.entered j h channel
  allocated := nofun
  located := nofun
  streams := held.streams

theorem Held.located_step (held : Held s) {channel : Nat} (idle : s.hub = .idle) (response : Str)
    (delivery : Delivery)
    (found : s.tables.getGrpcRoutingData clientId = (some channel, multiple)) :
    Held { s with hub := .located channel multiple clientId response delivery } where
  agree := by
    have before := held.agree
    rw [idle] at before
    exact before
  once := held.once
  entered := held.entered
  allocated := nofun
  located := by
    intro channel' multiple' id response' delivery' hub i
    cases hub
    have agree := held.agree
    rw [getGrpcRoutingData] at found
    split at found
    · next j entry =>
      have mine : (s.tables.grpcRoutingDataList.get j).grpcRespChannel = some channel :=
        congrArg Prod.fst found
      constructor
      · intro own
        rw [held.once i j channel own mine]
        exact .inl (entry_eq_some entry)
      · intro given here
        have same := (agree.entry_iff given).mpr here
        rw [entry] at same
        cases same
        exact mine
    · cases found
  streams := held.streams

/-- The texts for which `updateRoutingList` frees the entry. -/
def frees (response : Str) (isMultipleEvent : Bool) : Bool :=
  contains response "unsubscribe" || !isMultipleEvent ||
    (contains response "subscribe" && !contains response "subscriptionId")

theorem updateRoutingList_eq (t : Tables) (response : Str) (id : Int) (multiple : Bool) :
    t.updateRoutingList response id multiple =
      if frees response multiple then t.resetGrpcRoutingData id
      else if contains response "subscribe" then
        (getSubscriptionId response).map (t.updateGrpcRoutingData id)
      else some t := by
  rw [updateRoutingList, frees]
  cases contains response "unsubscribe" <;> cases multiple <;>
    cases contains response "subscribe" <;> cases contains response "subscriptionId" <;> rfl

theorem updateRoutingList_cases {response : Str}
    (changed : t.updateRoutingList response id multiple = some t') :
    (frees response multiple = true ∧ t.resetGrpcRoutingData id = some t') ∨
      (frees response multiple = false ∧
        (t' = t ∨ ∃ subId, t' = t.updateGrpcRoutingData id subId)) := by
  rw [updateRoutingList_eq] at changed
  split_ifs at changed with freed subscribes
  · exact .inl ⟨freed, changed⟩
  · obtain ⟨subId, -, rfl⟩ := Option.map_eq_some_iff.mp changed
    exact .inr ⟨Bool.eq_false_iff.mpr freed, .inr ⟨subId, rfl⟩⟩
  · cases changed
    exact .inr ⟨Bool.eq_false_iff.mpr freed, .inl rfl⟩

theorem channel_reset (reset : t.resetGrpcRoutingData id = some t') (i : Fin maxGrpcClients) :
    (t'.grpcRoutingDataList.get i).grpcRespChannel =
      (t.grpcRoutingDataList.get i).grpcRespChannel := by
  rw [get_reset reset]
  split_ifs <;> rfl

theorem clientId_reset (reset : t.resetGrpcRoutingData id = some t') (i : Fin maxGrpcClients) :
    (t'.grpcRoutingDataList.get i).clientId = (t.grpcRoutingDataList.get i).clientId ∨
      (t'.grpcRoutingDataList.get i).clientId = -1 := by
  rw [get_reset reset]
  split_ifs
  · exact .inr rfl
  · exact .inl rfl

theorem Held.updated_step (held : Held s) {channel : Nat} {response : Str} {delivery : Delivery}
    {tables : Tables} (hub : s.hub = .located channel multiple clientId response delivery)
    (changed : s.tables.updateRoutingList response clientId multiple = some tables) :
    Held { s with tables, hub := .sending channel delivery } := by
  have before := held.agree
  rw [hub] at before
  have built (agree : Agree tables none)
      (same : ∀ i, (tables.grpcRoutingDataList.get i).grpcRespChannel =
        (s.tables.grpcRoutingDataList.get i).grpcRespChannel) :
      Held { s with tables, hub := .sending channel delivery } := by
    refine ⟨agree, ?_, ?_, nofun, nofun, held.streams⟩
    · intro i j h first second
      rw [same] at first second
      exact held.once i j h first second
    · intro i h mine
      rw [same] at mine
      exact held.entered i h mine
  obtain ⟨-, reset⟩ | ⟨-, rfl | ⟨subId, rfl⟩⟩ := updateRoutingList_cases changed
  · exact built (before.resetGrpcRoutingData reset) (channel_reset reset)
  · exact built before fun _ => rfl
  · exact built (before.updateGrpcRoutingData clientId subId)
      (s.tables.channel_update clientId subId)

theorem Held.step (held : Held s) (change : Change s event s') : Held s' := by
  have calls (hub : s'.hub = s.hub) (same : s'.tables = s.tables) : Held s' := by
    apply held.of_tables change hub
    · rw [same]
      exact held.agree
    · intro i
      rw [same]
    · intro i
      rw [same]
      exact .inl rfl
  cases change with
  | began | moved | killed => exact calls rfl rfl
  | freed i call here frees tables reset =>
    exact held.of_tables (.freed i call here frees tables reset) rfl
      (held.agree.resetGrpcRoutingData reset) (channel_reset reset) (clientId_reset reset)
  | took i call idle here stage => exact held.took idle here stage
  | entered i clientId call hub => exact held.entered_step (isMultipleEventsRequest call.vssReq) hub
  | unknown => exact held
  | located response trimmed call failed clientId channel multiple idle removed found =>
    exact held.located_step idle response _ found
  | updated channel multiple clientId response delivery tables hub changed =>
    exact held.updated_step hub changed
  | delivered channel delivery call next hub here received =>
    have before := held.agree
    rw [hub] at before
    exact ⟨before, held.once,
      fun i h mine => (Change.delivered channel delivery call next hub here received).handedIn
        (held.entered i h mine), nofun, nofun,
      held.streams_step (.delivered channel delivery call next hub here received)⟩

end Reachable

end Vissr.Transport.Grpc
