import Vissr.Transport.GrpcTables
import Vissr.Transport.Http

/-! The hub of the gRPC manager and the calls of its clients (`grpcMgr/grpcMgr.go`). What a message
of the core is for a call is noted beside its text; no step depends on it. -/

namespace Vissr.Transport.Grpc

open Json Option

def killMessage : Str := "kill subscription"

def isMultipleEventsRequest (vssReq : Str) : Bool :=
  !contains vssReq "unsubscribe" && contains vssReq "subscribe"

/-- Whether it is taken for an error, and for a kill. -/
def classifySubscribeResponse (vssResp : Str) : Bool × Bool :=
  (contains vssResp "\"error\"", contains vssResp killMessage)

/-- The number after the first colon; 0 where there is none. -/
def extractClientId (message : Str) : Int :=
  match index ':' message with
  | some i => atoiClamped (message.drop (i + 1))
  | none => atoiClamped message

/-- `none` is a panic: the value is not a string. -/
def getSubscriptionId (resp : Str) : Option Str :=
  match unmarshalMap resp with
  | none => some []
  | some respMap =>
    match respMap.lookup "subscriptionId".toList with
    | none | some .null => some []
    | some (.str subscriptionId) => some subscriptionId
    | some _ => none

def Tables.updateRoutingList (t : Tables) (resp : Str) (clientId : Int) (isMultipleEvent : Bool) :
    Option Tables :=
  if contains resp "unsubscribe" then t.resetGrpcRoutingData clientId
  else if !isMultipleEvent then t.resetGrpcRoutingData clientId
  else if contains resp "subscribe" then
    if !contains resp "subscriptionId" then t.resetGrpcRoutingData clientId
    else (getSubscriptionId resp).map fun subscriptionId =>
      t.updateGrpcRoutingData clientId subscriptionId
  else some t

/-- The kill that an unsubscribe call sends to a stream. -/
def killText (clientId : Int) : Str := killMessage ++ " clientId:" ++ itoa clientId

def maxClientsText : Str :=
  "\x7b\"action\": \"get\",\"requestId\": \"9999\",\"error\": \x7b\"number\": \"404\", " ++
    "\"reason\": \"max_client_sessions\", " ++
    "\"description\": \"Max no of gRPC client sessions reached.\"\x7d," ++
    "\"ts\": \"2000-01-01T13:37:00Z\"\x7d"

inductive Origin
  /-- the core: for which call, and whether a subscribe request has failed -/
  | core (call : Nat) (failed : Bool)
  /-- the hub, which has no client id left -/
  | full
  /-- a call that unsubscribes -/
  | killer
deriving DecidableEq

structure Delivery where
  text : Str
  origin : Origin
deriving DecidableEq

inductive Kind
  /-- `dispatchGrpcUnaryRequest` -/
  | unary
  /-- `SubscribeRequest` -/
  | stream
deriving DecidableEq

/-- A stream keeps the client id it knows, at first -1. -/
inductive Stage
  /-- `killSubscribeStream`, before it looks for the stream -/
  | unsubscribing (subscriptionId : Str)
  /-- it hands a kill to the stream that it has found -/
  | killing (clientId : Int) (channel : Nat)
  /-- it hands its request to the hub -/
  | requesting
  | waiting (subscribeClientId : Int)
  /-- a stream has received a text -/
  | received (subscribeClientId : Int) (delivery : Delivery)
  /-- a stream is in `stream.Send` -/
  | forwarding (subscribeClientId : Int)
  /-- the client of a stream is gone -/
  | closing (subscribeClientId : Int)
  | returned
deriving DecidableEq

structure Call where
  kind : Kind
  vssReq : Str
  stage : Stage
deriving DecidableEq

inductive Hub
  | idle
  /-- it has a client id for a call, and has not entered it -/
  | allocated (call : Nat) (clientId : Int)
  /-- it knows the channel, and has not changed the table -/
  | located (channel : Nat) (isMultipleEvent : Bool) (clientId : Int) (response : Str)
      (delivery : Delivery)
  /-- it sends on a channel -/
  | sending (channel : Nat) (delivery : Delivery)
deriving DecidableEq

structure State where
  tables : Tables := {}
  hub : Hub := .idle
  calls : List Call := []

inductive Event
  | begin (call : Call)
  /-- an unsubscribe call looks for the stream -/
  | search (i : Nat)
  /-- it hands the kill to the call that has the channel -/
  | kill (i : Nat)
  /-- its time is out -/
  | giveUp (i : Nat)
  /-- the hub takes a request, and an id for it -/
  | take (i : Nat)
  /-- the hub enters the id -/
  | enter
  /-- the hub takes a response and looks for its entry -/
  | locate (response : Str) (call : Nat) (failed : Bool)
  /-- `updateRoutingList` -/
  | update
  /-- the call takes what the hub sends -/
  | deliver
  /-- a stream sees that its client is gone -/
  | done (i : Nat)
  | close (i : Nat)
  /-- a stream does what the text that it has received says -/
  | process (i : Nat)
  /-- `stream.Send` comes to its end -/
  | sent (i : Nat) (ok : Bool)

def Call.begins (call : Call) : Bool :=
  match call.stage with
  | .requesting => true
  | .unsubscribing _ => decide (call.kind = .unary)
  | _ => false

def Call.receive (call : Call) (delivery : Delivery) : Option Call :=
  match call.kind, call.stage with
  | .unary, .waiting _ => some { call with stage := .returned }
  | .stream, .waiting id => some { call with stage := .received id delivery }
  | _, _ => none

variable (s : State) (i : Nat)

def State.setStage (call : Call) (stage : Stage) : State :=
  { s with calls := s.calls.set i { call with stage } }

def State.search : Option State :=
  match s.calls[i]? with
  | none => none
  | some call =>
    match call.stage with
    | .unsubscribing subscriptionId =>
      match s.tables.getSubscribeRoutingData subscriptionId with
      | (clientId, some channel) => some (s.setStage i call (.killing clientId channel))
      | (_, none) => some (s.setStage i call .requesting)
    | _ => none

def State.kill : Option State :=
  match s.calls[i]? with
  | none => none
  | some call =>
    match call.stage with
    | .killing clientId channel =>
      match s.calls[channel]? with
      | none => none
      | some other =>
        (other.receive ⟨killText clientId, .killer⟩).map fun next =>
          { s with
            calls := (s.calls.set channel next).set i { call with stage := .requesting } }
    | _ => none

def State.giveUp : Option State :=
  match s.calls[i]? with
  | none => none
  | some call =>
    match call.stage with
    | .killing _ _ => some (s.setStage i call .requesting)
    | _ => none

/-- `handleGrpcNewClientSession`, to the end of `getClientId`. -/
def State.take : Option State :=
  match s.hub, s.calls[i]? with
  | .idle, some call =>
    match call.stage with
    | .requesting =>
      some {
        tables := s.tables.getClientId.1
        hub :=
          if s.tables.getClientId.2 = -1 then .sending i ⟨maxClientsText, .full⟩
          else .allocated i s.tables.getClientId.2
        calls := s.calls.set i { call with stage := .waiting (-1) } }
    | _ => none
  | _, _ => none

/-- The rest of `handleGrpcNewClientSession`. -/
def State.enter : Option State :=
  match s.hub with
  | .allocated i clientId =>
    (s.calls[i]?).map fun call =>
      { s with
        tables := (s.tables.setGrpcRoutingData clientId (some i)
          (isMultipleEventsRequest call.vssReq)).1
        hub := .idle }
  | _ => none

/-- `RemoveRoutingForwardResponse`, to the end of `getGrpcRoutingData`. -/
def State.locate (response : Str) (call : Nat) (failed : Bool) : Option State :=
  match s.hub, removeInternalData response with
  | .idle, some (trimmed, clientId) =>
    match s.tables.getGrpcRoutingData clientId with
    | (some channel, multiple) =>
      some { s with
        hub := .located channel multiple clientId response ⟨trimmed, .core call failed⟩ }
    | (none, _) => some s
  | _, _ => none

def State.update : Option State :=
  match s.hub with
  | .located channel multiple clientId response delivery =>
    (s.tables.updateRoutingList response clientId multiple).map fun tables =>
      { s with tables, hub := .sending channel delivery }
  | _ => none

def State.deliver : Option State :=
  match s.hub with
  | .sending channel delivery =>
    match s.calls[channel]? with
    | none => none
    | some call =>
      (call.receive delivery).map fun next =>
        { s with hub := .idle, calls := s.calls.set channel next }
  | _ => none

def State.done : Option State :=
  match s.calls[i]? with
  | none => none
  | some call =>
    match call.kind, call.stage with
    | .stream, .waiting id => some (s.setStage i call (.closing id))
    | _, _ => none

def State.free (call : Call) (clientId : Int) : Option State :=
  (s.tables.resetGrpcRoutingData clientId).map fun tables =>
    { s.setStage i call .returned with tables }

def State.close : Option State :=
  match s.calls[i]? with
  | none => none
  | some call =>
    match call.stage with
    | .closing id => s.free i call id
    | _ => none

def State.process : Option State :=
  match s.calls[i]? with
  | none => none
  | some call =>
    match call.stage with
    | .received id delivery =>
      match classifySubscribeResponse delivery.text with
      | (true, _) => some (s.setStage i call .returned)
      | (false, true) => s.free i call (extractClientId delivery.text)
      | (false, false) =>
        if id = -1 then
          (getSubscriptionId delivery.text).map fun subscriptionId =>
            s.setStage i call
              (.forwarding (s.tables.getSubscribeRoutingData subscriptionId).1)
        else some (s.setStage i call (.forwarding id))
    | _ => none

def State.sent (ok : Bool) : Option State :=
  match s.calls[i]? with
  | none => none
  | some call =>
    match call.stage with
    | .forwarding id => if ok then some (s.setStage i call (.waiting id)) else s.free i call id
    | _ => none

def State.step : Event → Option State
  | .begin call => if call.begins then some { s with calls := s.calls ++ [call] } else none
  | .search i => s.search i
  | .kill i => s.kill i
  | .giveUp i => s.giveUp i
  | .take i => s.take i
  | .enter => s.enter
  | .locate response call failed => s.locate response call failed
  | .update => s.update
  | .deliver => s.deliver
  | .done i => s.done i
  | .close i => s.close i
  | .process i => s.process i
  | .sent i ok => s.sent i ok

def callMachine : Machine State Event Unit where
  init := fun s => s = {}
  step := fun s event => (s.step event).map fun next => (next, ())

inductive Frees (s : State) (i : Nat) (call : Call) : Event → Int → Prop
  | close {id : Int} (stage : call.stage = .closing id) : Frees s i call (.close i) id
  | process {id : Int} {delivery : Delivery} (stage : call.stage = .received id delivery)
      (isKill : classifySubscribeResponse delivery.text = (false, true)) :
      Frees s i call (.process i) (extractClientId delivery.text)
  | sent {id : Int} (stage : call.stage = .forwarding id) : Frees s i call (.sent i false) id

/-- What a call does by itself, without the tables. -/
inductive Moves (s : State) (i : Nat) (call : Call) : Event → Stage → Prop
  | missed {subscriptionId : Str} (stage : call.stage = .unsubscribing subscriptionId) :
      Moves s i call (.search i) .requesting
  | found {subscriptionId : Str} (stage : call.stage = .unsubscribing subscriptionId)
      (clientId : Int) (channel : Nat) : Moves s i call (.search i) (.killing clientId channel)
  | gaveUp {clientId : Int} {channel : Nat} (stage : call.stage = .killing clientId channel) :
      Moves s i call (.giveUp i) .requesting
  | done {id : Int} (stream : call.kind = .stream) (stage : call.stage = .waiting id) :
      Moves s i call (.done i) (.closing id)
  | failed {id : Int} {delivery : Delivery} (stage : call.stage = .received id delivery)
      (isError : (classifySubscribeResponse delivery.text).1 = true) :
      Moves s i call (.process i) .returned
  | learned {id : Int} {delivery : Delivery} (stage : call.stage = .received id delivery)
      (plain : classifySubscribeResponse delivery.text = (false, false)) (known : Int) :
      Moves s i call (.process i) (.forwarding known)
  | sent {id : Int} (stage : call.stage = .forwarding id) :
      Moves s i call (.sent i true) (.waiting id)

inductive Change (s : State) : Event → State → Prop
  | began (call : Call) (fresh : call.begins = true) :
      Change s (.begin call) { s with calls := s.calls ++ [call] }
  | moved {event : Event} {stage : Stage} (i : Nat) (call : Call)
      (here : s.calls[i]? = some call) (moves : Moves s i call event stage) :
      Change s event (s.setStage i call stage)
  | freed {event : Event} {id : Int} (i : Nat) (call : Call) (here : s.calls[i]? = some call)
      (frees : Frees s i call event id) (tables : Tables)
      (reset : s.tables.resetGrpcRoutingData id = some tables) :
      Change s event { s.setStage i call .returned with tables }
  | killed (i : Nat) (call : Call) (clientId : Int) (channel : Nat) (other next : Call)
      (here : s.calls[i]? = some call) (stage : call.stage = .killing clientId channel)
      (there : s.calls[channel]? = some other)
      (received : other.receive ⟨killText clientId, .killer⟩ = some next) :
      Change s (.kill i)
        { s with calls := (s.calls.set channel next).set i { call with stage := .requesting } }
  | took (i : Nat) (call : Call) (idle : s.hub = .idle) (here : s.calls[i]? = some call)
      (stage : call.stage = .requesting) :
      Change s (.take i) {
        tables := s.tables.getClientId.1
        hub :=
          if s.tables.getClientId.2 = -1 then .sending i ⟨maxClientsText, .full⟩
          else .allocated i s.tables.getClientId.2
        calls := s.calls.set i { call with stage := .waiting (-1) } }
  | entered (i : Nat) (clientId : Int) (call : Call) (hub : s.hub = .allocated i clientId)
      (here : s.calls[i]? = some call) :
      Change s .enter { s with
        tables := (s.tables.setGrpcRoutingData clientId (some i)
          (isMultipleEventsRequest call.vssReq)).1
        hub := .idle }
  | unknown (response : Str) (call : Nat) (failed : Bool) (idle : s.hub = .idle) :
      Change s (.locate response call failed) s
  | located (response trimmed : Str) (call : Nat) (failed : Bool) (clientId : Int)
      (channel : Nat) (multiple : Bool) (idle : s.hub = .idle)
      (removed : removeInternalData response = some (trimmed, clientId))
      (found : s.tables.getGrpcRoutingData clientId = (some channel, multiple)) :
      Change s (.locate response call failed) { s with
        hub := .located channel multiple clientId response ⟨trimmed, .core call failed⟩ }
  | updated (channel : Nat) (multiple : Bool) (clientId : Int) (response : Str)
      (delivery : Delivery) (tables : Tables)
      (hub : s.hub = .located channel multiple clientId response delivery)
      (changed : s.tables.updateRoutingList response clientId multiple = some tables) :
      Change s .update { s with tables, hub := .sending channel delivery }
  | delivered (channel : Nat) (delivery : Delivery) (call next : Call)
      (hub : s.hub = .sending channel delivery) (here : s.calls[channel]? = some call)
      (received : call.receive delivery = some next) :
      Change s .deliver { s with hub := .idle, calls := s.calls.set channel next }

variable {s s' : State}

theorem Call.waiting_of_receive {call next : Call} {delivery : Delivery}
    (received : call.receive delivery = some next) : ∃ id, call.stage = .waiting id := by
  rw [Call.receive.eq_def] at received
  split at received
  · next id kind stage => exact ⟨id, stage⟩
  · next id kind stage => exact ⟨id, stage⟩
  · cases received

theorem killed_middle {i channel : Nat} {clientId : Int} {call other next : Call}
    {delivery : Delivery} (here : s.calls[i]? = some call)
    (stage : call.stage = .killing clientId channel) (there : s.calls[channel]? = some other)
    (received : other.receive delivery = some next) :
    ({ s with calls := s.calls.set channel next } : State).calls[i]? = some call := by
  have apart : channel ≠ i := by
    intro same
    rw [same, here] at there
    cases there
    obtain ⟨id, waits⟩ := Call.waiting_of_receive received
    cases stage.symm.trans waits
  rw [← here]
  exact List.getElem?_set_ne apart

theorem change_of_call {i : Nat} {event : Event} (f : Call → Option State)
    (taken : (match s.calls[i]? with | none => none | some call => f call) = some s')
    (changes : ∀ call, s.calls[i]? = some call → f call = some s' → Change s event s') :
    Change s event s' := by
  split at taken
  · cases taken
  · next call here => exact changes call here taken

theorem change_free {i : Nat} {call : Call} {event : Event} {id : Int}
    (here : s.calls[i]? = some call) (frees : Frees s i call event id)
    (taken : s.free i call id = some s') : Change s event s' := by
  obtain ⟨tables, reset, rfl⟩ := map_eq_some_iff.mp taken
  exact .freed i call here frees tables reset

theorem change_process {i : Nat} (taken : s.process i = some s') : Change s (.process i) s' := by
  apply change_of_call _ taken
  intro call here taken
  split at taken
  · next id delivery stage =>
    split at taken
    · next unused isError =>
      cases taken
      exact .moved i call here (.failed stage (by rw [isError]))
    · next isKill => exact change_free here (.process stage isKill) taken
    · next plain =>
      split_ifs at taken
      · obtain ⟨subId, -, rfl⟩ := map_eq_some_iff.mp taken
        exact .moved i call here (.learned stage plain _)
      · cases taken
        exact .moved i call here (.learned stage plain _)
  · cases taken

theorem step_change {event : Event} (taken : s.step event = some s') : Change s event s' := by
  cases event with
  | begin call =>
    rw [State.step] at taken
    split_ifs at taken with fresh
    cases taken
    exact .began call fresh
  | search i =>
    apply change_of_call _ taken
    intro call here taken
    split at taken
    · next subId stage =>
      split at taken
      · next clientId channel found =>
        cases taken
        exact .moved i call here (.found stage clientId channel)
      · cases taken
        exact .moved i call here (.missed stage)
    · cases taken
  | kill i =>
    apply change_of_call _ taken
    intro call here taken
    split at taken
    · next clientId channel stage =>
      split at taken
      · cases taken
      · next other there =>
        obtain ⟨next, received, rfl⟩ := map_eq_some_iff.mp taken
        exact .killed i call clientId channel other next here stage there received
    · cases taken
  | giveUp i =>
    apply change_of_call _ taken
    intro call here taken
    split at taken
    · next clientId channel stage =>
      cases taken
      exact .moved i call here (.gaveUp stage)
    · cases taken
  | take i =>
    rw [State.step, State.take.eq_def] at taken
    split at taken
    · next call idle here =>
      split at taken
      · next stage =>
        cases taken
        exact .took i call idle here stage
      · cases taken
    · cases taken
  | enter =>
    rw [State.step, State.enter.eq_def] at taken
    split at taken
    · next i clientId hub =>
      obtain ⟨call, here, rfl⟩ := map_eq_some_iff.mp taken
      exact .entered i clientId call hub here
    · cases taken
  | locate response call failed =>
    rw [State.step, State.locate.eq_def] at taken
    split at taken
    · next trimmed clientId idle removed =>
      split at taken
      · next channel multiple found =>
        cases taken
        exact .located response trimmed call failed clientId channel multiple idle removed
          found
      · cases taken
        exact .unknown response call failed idle
    · cases taken
  | update =>
    rw [State.step, State.update.eq_def] at taken
    split at taken
    · next channel multiple clientId response delivery hub =>
      obtain ⟨tables, changed, rfl⟩ := map_eq_some_iff.mp taken
      exact .updated channel multiple clientId response delivery tables hub changed
    · cases taken
  | deliver =>
    rw [State.step, State.deliver.eq_def] at taken
    split at taken
    · next channel delivery hub =>
      split at taken
      · cases taken
      · next call here =>
        obtain ⟨next, received, rfl⟩ := map_eq_some_iff.mp taken
        exact .delivered channel delivery call next hub here received
    · cases taken
  | done i =>
    apply change_of_call _ taken
    intro call here taken
    split at taken
    · next id stream stage =>
      cases taken
      exact .moved i call here (.done stream stage)
    · cases taken
  | close =>
    apply change_of_call _ taken
    intro call here taken
    split at taken
    · next id stage => exact change_free here (.close stage) taken
    · cases taken
  | process => exact change_process taken
  | sent i ok =>
    apply change_of_call _ taken
    intro call here taken
    split at taken
    · next id stage =>
      cases ok with
      | true =>
        cases taken
        exact .moved i call here (.sent stage)
      | false => exact change_free here (.sent stage) taken
    · cases taken

end Vissr.Transport.Grpc
