import Vissr.Channel
import Vissr.Run
import Vissr.Slots

/-! The sessions of the WebSocket and Unix domain socket managers, and the way of their requests to
the service manager and back. Which session a request, a subscription or an event stems from is
noted beside them; no step depends on it. -/

namespace Vissr.Transport.Clients

open List Option Nat Function Channel List.Subset

inductive Mgr
  | ws
  | uds
deriving DecidableEq

/-- `NUMOFWSCLIENTS` and `NUMOFUDSCLIENTS`. -/
abbrev numOfClients : Nat := 20

abbrev pipelineBuf : Nat := 32

/-- What a `RouterId` says: the manager and the slot of the client. -/
structure Address where
  mgr : Mgr
  clientId : Fin numOfClients
deriving DecidableEq

inductive Request
  | subscribe
  /-- `internal-killsubscriptions` -/
  | kill
  | other
deriving DecidableEq

structure Forwarded where
  address : Address
  session : Nat
  request : Request
deriving DecidableEq

inductive Message
  | response (address : Address) (session : Nat)
  /-- of a subscription that the session made -/
  | event (address : Address) (session : Nat)
deriving DecidableEq

def Message.address : Message → Address
  | .response address _ => address
  | .event address _ => address

/-- Where the goroutine is that reads from the client. -/
inductive Reader
  | reading
  /-- it hands a request to the hub -/
  | asking (request : Request)
  /-- it waits for the response -/
  | waiting
  /-- it hands the response to the writer -/
  | answering
  /-- the client is gone: it hands `internal-killsubscriptions` to the hub -/
  | killing
  /-- it hands the termination to the writer -/
  | terminating
  | returned
deriving DecidableEq

/-- Where the goroutine is that writes to the client. -/
inductive Writer
  | receiving
  /-- a response, or an event of a subscription that the session made -/
  | writing (event : Option Nat)
  | returned
deriving DecidableEq

structure Session where
  address : Address
  reader : Reader := .reading
  writer : Writer := .receiving
  /-- the slot has not been given back -/
  held : Bool := true
deriving DecidableEq

/-- The steps that a session takes by itself. -/
inductive Act
  | read (request : Request)
  /-- an error from the connection -/
  | fail
  | answer
  | terminate
  /-- a time out of the reader, or that it sees `quit` closed -/
  | giveUp
  /-- the writer sees `quit` closed -/
  | quit
  | write (ok : Bool)

/-- Time outs and `quit` are for the sockets. After an error a WebSocket writer goes on; that of a
socket closes `quit`. -/
def Session.act (x : Session) : Act → Option Session
  | .read request =>
    match x.reader with
    | .reading => some { x with reader := .asking request }
    | _ => none
  | .fail =>
    match x.reader with
    | .reading => some { x with reader := .killing }
    | _ => none
  | .answer =>
    match x.reader, x.writer with
    | .answering, .receiving => some { x with reader := .reading, writer := .writing none }
    | _, _ => none
  | .terminate =>
    match x.reader, x.writer with
    | .terminating, .receiving => some { x with reader := .returned, writer := .returned }
    | _, _ => none
  | .giveUp =>
    match x.address.mgr, x.reader with
    | .uds, .killing => some { x with reader := .terminating }
    | .uds, .terminating => some { x with reader := .returned }
    | .uds, .asking _ | .uds, .waiting | .uds, .answering =>
      if x.writer = .returned then some { x with reader := .returned } else none
    | _, _ => none
  | .quit =>
    match x.address.mgr, x.reader, x.writer with
    | .uds, .returned, .receiving => some { x with writer := .returned }
    | _, _, _ => none
  | .write ok =>
    match x.writer with
    | .writing _ =>
      some { x with writer := if ok ∨ x.address.mgr = .ws then .receiving else .returned }
    | _ => none

def Session.writes (x : Session) : Act → List Nat
  | .write true =>
    match x.writer with
    | .writing (some session) => [session]
    | _ => []
  | _ => []

/-- The hub answers a request that fails the JSON schema; a kill is not checked. -/
def Session.ask (x : Session) (valid : Bool) : Option (Session × Option Request) :=
  match x.reader with
  | .killing => some ({ x with reader := .terminating }, some .kill)
  | .asking request =>
    if valid ∨ request = .kill then some ({ x with reader := .waiting }, some request)
    else some ({ x with reader := .answering }, none)
  | _ => none

def Session.takes (x : Session) : Message → Bool
  | .response address _ => x.address = address ∧ x.reader = .waiting
  | .event address _ => x.address = address ∧ x.writer = .receiving

def Session.receive (x : Session) : Message → Session
  | .response _ _ => { x with reader := .answering }
  | .event _ session => { x with writer := .writing (some session) }

structure Manager where
  /-- true where the slot is free -/
  clientIndexList : Slots Bool numOfClients := .replicate numOfClients true
  /-- the request that the hub is about to send -/
  hub : Option Forwarded := none
  requestChannel : Channel Forwarded pipelineBuf := {}
  transportDataChannel : Channel Forwarded pipelineBuf := {}
  backendChannel : Channel Message pipelineBuf := {}
  responseChannel : Channel Message pipelineBuf := {}

/-- `AddRoutingForwardRequest`, to its send. -/
def Manager.forward (m : Manager) : Option Manager :=
  match m.hub with
  | some request =>
    (m.requestChannel.send request).map fun sent =>
      { m with hub := none, requestChannel := sent }
  | none => none

/-- A request is dropped where the core is behind. -/
def Manager.relay (m : Manager) : Option Manager := m.requestChannel.receive.map fun received =>
    { m with
      requestChannel := received.2
      transportDataChannel := (m.transportDataChannel.send received.1).getD m.transportDataChannel }

/-- What the core has is dropped where the hub is behind. -/
def Manager.relayBack (m : Manager) : Option Manager := m.backendChannel.receive.map fun received =>
    { m with
      backendChannel := received.2
      responseChannel := (m.responseChannel.send received.1).getD m.responseChannel }

/-- The channels to and from the service manager are one queue each. -/
structure State where
  sessions : List Session := []
  manager : Mgr → Manager := fun _ => {}
  /-- the requests on their way to the service manager -/
  service : List Forwarded := []
  /-- the `RouterId` of every subscription, and the session that made it -/
  subscriptions : List (Address × Nat) := []
  /-- what is on its way back to the core -/
  notifications : List Message := []
  /-- the events written: to which session, and of which session -/
  written : List (Nat × Nat) := []

variable (s : State) (mgr : Mgr)

def State.setManager (m : Manager) : State :=
  { s with manager := update s.manager mgr m }

inductive Event
  | connect (mgr : Mgr)
  | act (i : Nat) (a : Act)
  /-- the hub takes a request of the session -/
  | take (i : Nat) (valid : Bool)
  /-- the session gives its slot back -/
  | leave (i : Nat)
  | forward (mgr : Mgr)
  | relay (mgr : Mgr)
  /-- the core passes a request on, or answers it -/
  | serve (mgr : Mgr) (passes : Bool)
  | handle (ok : Bool)
  /-- a subscription ends for another reason than a kill -/
  | cancel (k : Nat)
  /-- a subscription is triggered -/
  | notify (k : Nat)
  | dispatch
  | relayBack (mgr : Mgr)
  /-- the hub hands a message to its session, or drops it -/
  | deliver (mgr : Mgr) (taken : Bool)

/-- A client too many is turned away. -/
def State.connect : State :=
  match (s.manager mgr).clientIndexList.first id with
  | none => s
  | some clientId =>
    { s with
      sessions := s.sessions ++ [{ address := ⟨mgr, clientId⟩ }]
      manager := update s.manager mgr
        { s.manager mgr with
          clientIndexList := (s.manager mgr).clientIndexList.set clientId false } }

def State.act (s : State) (i : Nat) (a : Act) : Option State :=
  match s.sessions[i]? with
  | none => none
  | some x =>
    (x.act a).map fun y =>
      { s with
        sessions := s.sessions.set i y
        written := s.written ++ (x.writes a).map fun session => (i, session) }

def State.take (i : Nat) (valid : Bool) : Option State :=
  match s.sessions[i]? with
  | none => none
  | some x =>
    match (s.manager x.address.mgr).hub, x.ask valid with
    | none, some (y, request) =>
      some { s with
        sessions := s.sessions.set i y
        manager := update s.manager x.address.mgr
          { s.manager x.address.mgr with
            hub := request.map fun request => ⟨x.address, i, request⟩ } }
    | _, _ => none

/-- `ReturnWsClientIndex` and `returnUdsClientIndex`. -/
def State.leave (i : Nat) : Option State :=
  match s.sessions[i]? with
  | none => none
  | some x =>
    if x.held ∧ x.reader = .returned ∧ x.writer = .returned then
      some { s with
        sessions := s.sessions.set i { x with held := false }
        manager := update s.manager x.address.mgr
          { s.manager x.address.mgr with
            clientIndexList :=
              (s.manager x.address.mgr).clientIndexList.set x.address.clientId true } }
    else none

/-- A kill is always passed on. -/
def State.serve (passes : Bool) : Option State :=
  match (s.manager mgr).transportDataChannel.receive with
  | none => none
  | some (request, rest) =>
    if passes ∨ request.request = .kill then
      some { s with
        manager := update s.manager mgr
          { s.manager mgr with transportDataChannel := rest }
        service := s.service ++ [request] }
    else
      ((s.manager mgr).backendChannel.send (.response request.address request.session)).map
        fun sent => s.setManager mgr
          { s.manager mgr with transportDataChannel := rest, backendChannel := sent }

/-- A kill is not answered, and ends what has the `RouterId`. -/
def State.handle (ok : Bool) : Option State :=
  match s.service with
  | [] => none
  | request :: rest =>
    match request.request with
    | .kill =>
      some { s with
        service := rest
        subscriptions := s.subscriptions.filter fun made => made.1 ≠ request.address }
    | .subscribe =>
      some { s with
        service := rest
        subscriptions := s.subscriptions ++ if ok then [(request.address, request.session)] else []
        notifications := s.notifications ++ [.response request.address request.session] }
    | .other =>
      some { s with
        service := rest
        notifications := s.notifications ++ [.response request.address request.session] }

/-- An event carries the `RouterId` of its subscription. -/
def State.notify (k : Nat) : Option State := (s.subscriptions[k]?).map fun made =>
    { s with notifications := s.notifications ++ [.event made.1 made.2] }

/-- `serviceDataSession`, for a message from the service manager. -/
def State.dispatch : Option State :=
  match s.notifications with
  | [] => none
  | message :: rest =>
    ((s.manager message.address.mgr).backendChannel.send message).map fun sent =>
      { s with
        manager := update s.manager message.address.mgr
          { s.manager message.address.mgr with backendChannel := sent }
        notifications := rest }

/-- An event is dropped where the writer does not wait. The hub of the WebSockets waits until a
response is taken; that of the sockets drops it after a time. -/
def State.deliver (taken : Bool) : Option State :=
  match (s.manager mgr).hub, (s.manager mgr).responseChannel.receive with
  | none, some (message, rest) =>
    if taken then
      (s.sessions.findIdx? fun x => x.takes message).map fun i =>
        { s with
          sessions := s.sessions.modify i fun x => x.receive message
          manager := update s.manager mgr
            { s.manager mgr with responseChannel := rest } }
    else
      match message with
      | .response _ _ =>
        if mgr = .uds then
          some (s.setManager mgr { s.manager mgr with responseChannel := rest })
        else none
      | .event _ _ => some (s.setManager mgr { s.manager mgr with responseChannel := rest })
  | _, _ => none

def State.step : Event → Option State
  | .connect mgr => some (s.connect mgr)
  | .act i a => s.act i a
  | .take i valid => s.take i valid
  | .leave i => s.leave i
  | .forward mgr => (s.manager mgr).forward.map (s.setManager mgr)
  | .relay mgr => (s.manager mgr).relay.map (s.setManager mgr)
  | .serve mgr passes => s.serve mgr passes
  | .handle ok => s.handle ok
  | .cancel k => some { s with subscriptions := s.subscriptions.eraseIdx k }
  | .notify k => s.notify k
  | .dispatch => s.dispatch
  | .relayBack mgr => (s.manager mgr).relayBack.map (s.setManager mgr)
  | .deliver mgr taken => s.deliver mgr taken

def clientMachine : Machine State Event Unit where
  init := fun s => s = {}
  step := fun s event => (s.step event).map fun next => (next, ())

inductive Item
  | up (request : Forwarded)
  | down (message : Message)
deriving DecidableEq

def Manager.items (m : Manager) : List Item :=
  (m.hub.toList ++ m.requestChannel.items ++ m.transportDataChannel.items).map .up ++
    (m.backendChannel.items ++ m.responseChannel.items).map .down

def State.items (s : State) : List Item :=
  s.service.map .up ++ s.notifications.map .down ++ (s.manager .ws).items ++ (s.manager .uds).items

def State.free (address : Address) : Bool :=
  (s.manager address.mgr).clientIndexList.get address.clientId

/-- Some of what is on its way is gone, and only what is fresh has come. -/
def Moves (s s' : State) (gone fresh : List Item) : Prop :=
  ∀ p, s'.items.countP p + gone.countP p ≤ s.items.countP p + fresh.countP p

variable {s s' : State}

theorem countP_eq_pos {items : List Item} {item : Item} :
    0 < items.countP (· = item) ↔ item ∈ items := by simp [countP_pos_iff]

theorem Moves.mem {gone fresh : List Item} (moves : Moves s s' gone fresh) {item : Item}
    (mem : item ∈ s'.items) : item ∈ s.items ∨ item ∈ fresh := by
  have counted := moves (· = item)
  rw [← countP_eq_pos] at mem
  rw [← countP_eq_pos, ← countP_eq_pos]
  omega

variable {mgr : Mgr} {m m' : Manager}

theorem moves_of_update {gone fresh : List Item} (changed : s'.manager = update s.manager mgr m)
    (balance : ∀ p, m.items.countP p + s'.service.countP (p ∘ .up) +
        s'.notifications.countP (p ∘ .down) + gone.countP p ≤
      (s.manager mgr).items.countP p + s.service.countP (p ∘ .up) +
        s.notifications.countP (p ∘ .down) + fresh.countP p) : Moves s s' gone fresh := by
  intro p
  have count := balance p
  cases mgr with
  | ws =>
    have other : s'.manager .uds = s.manager .uds := by rw [changed]; rfl
    have this : s'.manager .ws = m := by rw [changed]; rfl
    simp only [State.items, other, this, countP_append, countP_map]
    omega
  | uds =>
    have other : s'.manager .ws = s.manager .ws := by rw [changed]; rfl
    have this : s'.manager .uds = m := by rw [changed]; rfl
    simp only [State.items, other, this, countP_append, countP_map]
    omega

theorem free_update (changed : s'.manager = update s.manager mgr m)
    (same : m.clientIndexList = (s.manager mgr).clientIndexList) : s'.free = s.free := by
  funext address
  rw [State.free, State.free, changed]
  by_cases here : address.mgr = mgr
  · rw [here, update_self, same]
  · rw [update_of_ne here]

theorem free_update_set {address : Address} {b : Bool}
    (changed : s'.manager = update s.manager address.mgr m) (set : m.clientIndexList =
      (s.manager address.mgr).clientIndexList.set address.clientId b) :
    s'.free = update s.free address b := by
  funext other
  rw [State.free, changed]
  by_cases same : other = address
  · rw [same, update_self, update_self, set, Slots.get_set_self]
  · rw [update_of_ne same]
    by_cases here : other.mgr = address.mgr
    · have apart : address.clientId ≠ other.clientId := by
        intro equal
        apply same
        obtain ⟨mgr, clientId⟩ := other
        cases here
        cases equal
        rfl
      rw [State.free, here, update_self, set, Slots.get_set_of_ne _ _ _ _ apart]
    · rw [update_of_ne here, State.free]

/-- Some of what is on its way may be gone, the slots are the same. -/
structure Manager.Loses (m m' : Manager) : Prop where
  slots : m'.clientIndexList = m.clientIndexList
  fewer : ∀ p, m'.items.countP p ≤ m.items.countP p

theorem Manager.loses_forward (forwarded : m.forward = some m') : m.Loses m' := by
  rw [Manager.forward.eq_def] at forwarded
  split at forwarded
  · next request held =>
    obtain ⟨sent, send, rfl⟩ := map_eq_some_iff.mp forwarded
    refine ⟨rfl, fun p => ?_⟩
    simp only [Manager.items, held, items_of_send send, toList_none,
      toList_some, map_append, countP_append, map_cons, map_nil,
      countP_nil]
    omega
  · cases forwarded

theorem Manager.loses_relay (relayed : m.relay = some m') : m.Loses m' := by
  obtain ⟨⟨request, rest⟩, received, rfl⟩ := map_eq_some_iff.mp relayed
  refine ⟨rfl, fun p => ?_⟩
  have kept := ((sublist_of_getD_send m.transportDataChannel request).map
    Item.up).countP_le (p := p)
  simp only [Manager.items, items_of_receive received, map_append,
    countP_append, map_cons, map_nil, countP_cons, countP_nil] at kept ⊢
  omega

theorem Manager.loses_relayBack (relayed : m.relayBack = some m') : m.Loses m' := by
  obtain ⟨⟨message, rest⟩, received, rfl⟩ := map_eq_some_iff.mp relayed
  refine ⟨rfl, fun p => ?_⟩
  have kept := ((sublist_of_getD_send m.responseChannel message).map
    Item.down).countP_le (p := p)
  simp only [Manager.items, items_of_receive received, map_append,
    countP_append, map_cons, map_nil, countP_cons, countP_nil] at kept ⊢
  omega

def Item.address : Item → Address
  | .up request => request.address
  | .down message => message.address

/-- What a manager has is from or for its own clients. -/
def State.Routed (s : State) : Prop := ∀ mgr, ∀ item ∈ (s.manager mgr).items, item.address.mgr = mgr

theorem State.Routed.update (routed : s.Routed) (changed : s'.manager = update s.manager mgr m)
    (new : ∀ item ∈ m.items, item ∈ (s.manager mgr).items ∨ item.address.mgr = mgr) :
    s'.Routed := by
  intro other item mem
  rw [changed] at mem
  by_cases here : other = mgr
  · rw [here, update_self] at mem
    rw [here]
    obtain old | own := new item mem
    · exact routed mgr item old
    · exact own
  · rw [update_of_ne here] at mem
    exact routed other item mem

theorem State.Routed.fewer (routed : s.Routed)
    (changed : s'.manager = Function.update s.manager mgr m)
    (fewer : ∀ p, m.items.countP p ≤ (s.manager mgr).items.countP p) : s'.Routed :=
  routed.update changed fun _ mem =>
    .inl (countP_eq_pos.mp (Nat.lt_of_lt_of_le (countP_eq_pos.mpr mem) (fewer _)))

/-- Neither a session nor a slot changes. -/
structure Unseen (s s' : State) : Prop where
  sessions : s'.sessions = s.sessions
  written : s'.written = s.written
  free : s'.free = s.free

/-- What goes and comes for a session, and the events that are written. -/
inductive Session.Next (s : State) (i : Nat) (x : Session) :
    Session → List Item → List Item → List Nat → Prop
  | same : Next s i x x [] [] []
  | acted {y : Session} (a : Act) (acts : x.act a = some y) : Next s i x y [] [] (x.writes a)
  | asked {y : Session} (valid : Bool) (request : Option Request)
      (asks : x.ask valid = some (y, request)) :
      Next s i x y [] (request.toList.map fun request => .up ⟨x.address, i, request⟩) []
  | left (reader : x.reader = .returned) (writer : x.writer = .returned) :
      Next s i x { x with held := false } [] [] []
  | received (message : Message) (found : .down message ∈ s.items)
      (takes : x.takes message = true) : Next s i x (x.receive message) [.down message] [] []

inductive Turn (s s' : State) : List Item → List Item → Prop
  | passed (ended : s'.subscriptions ⊆ s.subscriptions) : Turn s s' [] []
  | answered (request : Forwarded) (found : .up request ∈ s.items)
      (waits : request.request ≠ .kill)
      (made : ∀ x ∈ s'.subscriptions, x ∈ s.subscriptions ∨
        request.request = .subscribe ∧ x = (request.address, request.session)) :
      Turn s s' [.up request] [.down (.response request.address request.session)]
  | notified (made : Address × Nat) (found : made ∈ s.subscriptions)
      (same : s'.subscriptions = s.subscriptions) :
      Turn s s' [] [.down (.event made.1 made.2)]

inductive Effect (s s' : State) : Prop
  | moved (gone fresh : List Item) (unseen : Unseen s s') (turn : Turn s s' gone fresh)
      (moves : Moves s s' gone fresh)
  | connected (address : Address) (wasFree : s.free address = true)
      (free : s'.free = update s.free address false)
      (sessions : s'.sessions = s.sessions ++ [{ address := address }])
      (written : s'.written = s.written) (same : s'.subscriptions = s.subscriptions)
      (moves : Moves s s' [] [])
  | changed (i : Nat) (x y : Session) (gone fresh : List Item) (events : List Nat)
      (here : s.sessions[i]? = some x) (next : x.Next s i y gone fresh events)
      (free : s'.free = s.free ∨
        s'.free = update s.free x.address true ∧ x.held = true ∧ y.held = false)
      (sessions : s'.sessions = s.sessions.set i y)
      (written : s'.written = s.written ++ events.map fun session => (i, session))
      (same : s'.subscriptions = s.subscriptions) (moves : Moves s s' gone fresh)

def Stepped (s s' : State) : Prop := Effect s s' ∧ (s.Routed → s'.Routed)

theorem moves_refl : Moves s s [] [] := fun _ => Nat.le_refl _

variable {i : Nat}

theorem stepped_setManager (loses : (s.manager mgr).Loses m) :
    Stepped s (s.setManager mgr m) := by
  refine ⟨.moved [] [] ⟨rfl, rfl, free_update rfl loses.slots⟩ (.passed (refl _))
    (moves_of_update rfl fun p => ?_), fun routed => routed.fewer rfl loses.fewer⟩
  have less := loses.fewer p
  simp only [State.setManager]
  omega

theorem stepped_connect (mgr : Mgr) : Stepped s (s.connect mgr) := by
  rw [State.connect.eq_def]
  split
  · exact ⟨.moved [] [] ⟨rfl, rfl, rfl⟩ (.passed (refl _)) moves_refl, id⟩
  · next clientId first =>
    have chosen := (Slots.first_eq_some id _ clientId first).1
    exact ⟨.connected ⟨mgr, clientId⟩ chosen (free_update_set rfl rfl) rfl rfl rfl
      (moves_of_update rfl fun p => Nat.le_refl _),
      fun routed => routed.update rfl fun _ mem => .inl mem⟩

theorem stepped_act {a : Act} (taken : s.act i a = some s') : Stepped s s' := by
  rw [State.act.eq_def] at taken
  split at taken
  · cases taken
  · next x here =>
    obtain ⟨y, acts, rfl⟩ := map_eq_some_iff.mp taken
    exact ⟨.changed i x y [] [] _ here (.acted a acts) (.inl rfl) rfl rfl rfl moves_refl, id⟩

theorem stepped_take {valid : Bool} (taken : s.take i valid = some s') : Stepped s s' := by
  rw [State.take.eq_def] at taken
  split at taken
  · cases taken
  · next x here =>
    split at taken
    · next y request idle asks =>
      cases taken
      refine ⟨.changed i x y [] _ [] here (.asked valid request asks) (.inl (free_update rfl rfl))
        rfl (append_nil _).symm rfl (moves_of_update rfl fun p => ?_),
        fun routed => routed.update rfl fun item mem => ?_⟩
      · cases request with
        | none =>
          simp only [Manager.items, idle, map_none, toList_none, map_nil, countP_nil]
          omega
        | some =>
          simp only [Manager.items, idle, map_some, toList_some, toList_none,
            map_append, map_cons, map_nil, countP_append, countP_nil]
          omega
      · cases request with
        | none => exact .inl (by simpa [Manager.items, idle] using mem)
        | some =>
          simp only [Manager.items, idle, map_some, toList_some, toList_none] at mem ⊢
          grind [Item.address]
    · cases taken

theorem stepped_leave (taken : s.leave i = some s') : Stepped s s' := by
  rw [State.leave.eq_def] at taken
  split at taken
  · cases taken
  · next x here =>
    split_ifs at taken with ended
    cases taken
    exact ⟨.changed i x _ [] [] [] here (.left ended.2.1 ended.2.2)
      (.inr ⟨free_update_set rfl rfl, ended.1, rfl⟩) rfl (append_nil _).symm rfl
      (moves_of_update rfl fun p => Nat.le_refl _),
      fun routed => routed.update rfl fun _ mem => .inl mem⟩

theorem mem_items_of_mem {item : Item} (inside : item ∈ (s.manager mgr).items) :
    item ∈ s.items := by
  cases mgr with
  | ws => exact mem_append_left _ (mem_append_right _ inside)
  | uds => exact mem_append_right _ inside

theorem stepped_serve {passes : Bool} (taken : s.serve mgr passes = some s') : Stepped s s' := by
  rw [State.serve.eq_def] at taken
  split at taken
  · cases taken
  · next request rest received =>
    have items := items_of_receive received
    have inside : Item.up request ∈ (s.manager mgr).items := by simp [Manager.items, items]
    split_ifs at taken with passed
    · cases taken
      refine ⟨.moved [] [] ⟨rfl, rfl, free_update rfl rfl⟩ (.passed (refl _))
        (moves_of_update rfl fun p => ?_), fun routed => routed.fewer rfl fun p => ?_⟩
      · simp only [Manager.items, items, map_append, map_cons, countP_append,
          countP_cons, countP_nil, comp_apply]
        omega
      · simp only [Manager.items, items, map_append, map_cons, countP_append, countP_cons]
        omega
    · obtain ⟨sent, send, rfl⟩ := map_eq_some_iff.mp taken
      refine ⟨.moved _ _ ⟨rfl, rfl, free_update rfl rfl⟩ (.answered request (mem_items_of_mem inside)
        (fun kill => passed (.inr kill)) fun x mem => .inl mem)
        (moves_of_update rfl fun p => ?_), fun routed => routed.update rfl fun item mem => ?_⟩
      · simp only [State.setManager, Manager.items, items, items_of_send send,
          map_append, map_cons, map_nil, countP_append, countP_cons,
          countP_nil]
        omega
      · have origin := routed mgr _ inside
        simp only [Manager.items, items_of_send send, items] at mem ⊢
        grind [Item.address, Message.address]

theorem stepped_handle {ok : Bool} (taken : s.handle ok = some s') : Stepped s s' := by
  rw [State.handle.eq_def] at taken
  split at taken
  · cases taken
  · next request rest front =>
    have found : Item.up request ∈ s.items := by simp [State.items, front]
    split at taken
    · cases taken
      refine ⟨.moved [] [] ⟨rfl, rfl, rfl⟩ (.passed (filter_subset_self _)) fun p => ?_, id⟩
      simp only [State.items, front, map_cons, countP_append, countP_cons, countP_nil]
      omega
    · next subscribes =>
      cases taken
      refine ⟨.moved _ _ ⟨rfl, rfl, rfl⟩ (.answered request found (by rw [subscribes]; decide) ?_)
        fun p => ?_, id⟩
      · intro x mem
        obtain old | new := mem_append.mp mem
        · exact .inl old
        · split_ifs at new
          · exact .inr ⟨subscribes, mem_singleton.mp new⟩
          · cases new
      · simp only [State.items, front, map_append, map_cons, map_nil,
          countP_append, countP_cons, countP_nil]
        omega
    · next other =>
      cases taken
      refine ⟨.moved _ _ ⟨rfl, rfl, rfl⟩ (.answered request found (by rw [other]; decide)
        fun x mem => .inl mem) fun p => ?_, id⟩
      simp only [State.items, front, map_append, map_cons, map_nil,
        countP_append, countP_cons, countP_nil]
      omega

theorem stepped_notify {k : Nat} (taken : s.notify k = some s') : Stepped s s' := by
  obtain ⟨made, here, rfl⟩ := map_eq_some_iff.mp taken
  refine ⟨.moved _ _ ⟨rfl, rfl, rfl⟩ (.notified made (mem_of_getElem? here) rfl)
    fun p => ?_, id⟩
  simp only [State.items, map_append, map_cons, map_nil, countP_append, countP_nil]
  omega

theorem stepped_dispatch (taken : s.dispatch = some s') : Stepped s s' := by
  rw [State.dispatch.eq_def] at taken
  split at taken
  · cases taken
  · next message rest front =>
    obtain ⟨sent, send, rfl⟩ := map_eq_some_iff.mp taken
    refine ⟨.moved [] [] ⟨rfl, rfl, free_update rfl rfl⟩ (.passed (refl _))
      (moves_of_update rfl fun p => ?_), fun routed => routed.update rfl fun item mem => ?_⟩
    · simp only [Manager.items, front, items_of_send send, map_append, map_cons,
        map_nil, countP_append, countP_cons, countP_nil, comp_apply]
      omega
    · simp only [Manager.items, items_of_send send] at mem ⊢
      grind [Item.address]

theorem mem_items_of_receive {message : Message} {rest : Channel Message pipelineBuf}
    (received : (s.manager mgr).responseChannel.receive = some (message, rest)) :
    .down message ∈ s.items := by
  apply @mem_items_of_mem s mgr
  simp [Manager.items, items_of_receive received]

theorem exists_taker {message : Message}
    (found : s.sessions.findIdx? (fun x => x.takes message) = some i) :
    ∃ x, s.sessions[i]? = some x ∧ x.takes message = true := by
  obtain ⟨inside, takes, -⟩ := findIdx?_eq_some_iff_getElem.mp found
  exact ⟨_, getElem?_eq_getElem inside, takes⟩

theorem stepped_deliver {handed : Bool} (taken : s.deliver mgr handed = some s') :
    Stepped s s' := by
  rw [State.deliver.eq_def] at taken
  split at taken
  · next message rest idle received =>
    have items := items_of_receive received
    have fewer (p : Item → Bool) :
        ({ s.manager mgr with responseChannel := rest } : Manager).items.countP p +
          [Item.down message].countP p = (s.manager mgr).items.countP p := by
      simp only [Manager.items, items, map_append, map_cons, countP_append, countP_cons, countP_nil]
      omega
    have dropped : Stepped s (s.setManager mgr { s.manager mgr with responseChannel := rest }) :=
      stepped_setManager ⟨rfl, fun p => le.intro (fewer p)⟩
    split at taken
    · obtain ⟨i, found, rfl⟩ := map_eq_some_iff.mp taken
      obtain ⟨x, here, takes⟩ := exists_taker found
      refine ⟨.changed i x _ _ [] [] here (.received message (mem_items_of_receive received) takes)
        (.inl (free_update rfl rfl)) ?_ (append_nil _).symm rfl
        (moves_of_update rfl fun p => ?_),
        fun routed => routed.fewer rfl fun p => le.intro (fewer p)⟩
      · simp [modify_eq_set_getElem?, here]
      · have less := fewer p
        simp only [countP_nil] at less ⊢
        omega
    · split at taken
      · split_ifs at taken
        cases taken
        exact dropped
      · cases taken
        exact dropped
  · cases taken

theorem step_stepped {event : Event} (taken : s.step event = some s') : Stepped s s' := by
  cases event with
  | connect mgr =>
    cases taken
    exact stepped_connect mgr
  | act => exact stepped_act taken
  | take => exact stepped_take taken
  | leave => exact stepped_leave taken
  | forward =>
    obtain ⟨m, forwarded, rfl⟩ := map_eq_some_iff.mp taken
    exact stepped_setManager (Manager.loses_forward forwarded)
  | relay =>
    obtain ⟨m, relayed, rfl⟩ := map_eq_some_iff.mp taken
    exact stepped_setManager (Manager.loses_relay relayed)
  | serve => exact stepped_serve taken
  | handle => exact stepped_handle taken
  | cancel =>
    cases taken
    exact ⟨.moved [] [] ⟨rfl, rfl, rfl⟩ (.passed eraseIdx_subset) moves_refl, id⟩
  | notify => exact stepped_notify taken
  | dispatch => exact stepped_dispatch taken
  | relayBack =>
    obtain ⟨m, relayed, rfl⟩ := map_eq_some_iff.mp taken
    exact stepped_setManager (Manager.loses_relayBack relayed)
  | deliver => exact stepped_deliver taken

end Vissr.Transport.Clients
