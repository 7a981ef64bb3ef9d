import Vissr.ServiceMgr.Deadlock
import Vissr.Core.Checks
import Vissr.Channel

/-! The channel between the core and the service manager, on which both sides send and receive. -/

namespace Vissr.Core

open Json ServiceMgr Option

def extractMgrId (routerId : Str) : Option Int :=
  match routerId.span (· ≠ '?') with
  | (_, []) => none
  | ([], _) => none
  | (mgrId, _) => atoi mgrId

def responseIndex (response : Map Value) : Option Nat :=
  match (getStr response "RouterId").bind extractMgrId with
  | some mgrIndex =>
    if 0 ≤ mgrIndex ∧ mgrIndex < numOfTransportMgrs then some mgrIndex.toNat else none
  | none => none

/-- On the way to the select, waiting there, or at a send. -/
inductive Session where
  | selecting
  | waiting
  | sending (request : Map Value)
  | forwarding (mgrIndex : Nat) (response : Map Value)

inductive Party where
  | session
  | server
  deriving DecidableEq

structure Delivery where
  sender : Party
  receiver : Party
  message : Map Value

structure ServiceSystem where
  session : Session := .selecting
  manager : System := {}
  /-- `initDataServer` waits at its select -/
  serverWaits : Bool := false
  /-- the maps in the channel, with who sent them -/
  channel : Channel (Party × Map Value) pipelineBuf := {}

inductive ServiceEvent where
  /-- the session receives a request of the dispatcher -/
  | take (request : Map Value)
  | sessionSend
  | sessionReceive
  /-- the session finds nothing to receive -/
  | sessionWait
  /-- the session of a transport takes the response -/
  | sessionForwarded
  | serverSend
  | serverReceive
  | serverWait
  /-- a step of the service manager without this channel -/
  | inside (event : Event)

def receiveResponse (response : Map Value) : Session :=
  match responseIndex response with
  | some mgrIndex => .forwarding mgrIndex response
  | none => .selecting

def isSelecting (manager : System) : Bool :=
  match manager.server with
  | .selecting => true
  | _ => false

variable (s : ServiceSystem)

def ServiceSystem.sendRequest (request : Map Value) :
    Option (ServiceSystem × Option Delivery) :=
  if s.serverWaits then
    (s.manager.step (.request request)).map fun manager =>
      ({ s with session := .selecting, manager, serverWaits := false },
        some ⟨.session, .server, request⟩)
  else
    (s.channel.send (.session, request)).map fun channel =>
      ({ s with session := .selecting, channel }, none)

def ServiceSystem.sendResponse (manager : System) (message : Map Value) :
    Option (ServiceSystem × Option Delivery) :=
  match s.session with
  | .waiting =>
    some ({ s with session := receiveResponse message, manager }, some ⟨.server, .session, message⟩)
  | _ =>
    (s.channel.send (.server, message)).map fun channel =>
      ({ s with manager, channel }, none)

def ServiceSystem.inside (event : Event) : Option ServiceSystem :=
  (s.manager.step event).map fun manager =>
    { s with manager, serverWaits := s.serverWaits && isSelecting manager }

def ServiceSystem.step (s : ServiceSystem) :
    ServiceEvent → Option (ServiceSystem × Option Delivery)
  | .take request =>
    match s.session with
    | .selecting => some ({ s with session := .sending request }, none)
    | .waiting => some ({ s with session := .sending request }, none)
    | _ => none
  | .sessionSend =>
    match s.session with
    | .sending request => s.sendRequest request
    | _ => none
  | .sessionReceive =>
    match s.session, s.channel.receive with
    | .selecting, some ((sender, response), channel) =>
      some ({ s with session := receiveResponse response, channel },
        some ⟨sender, .session, response⟩)
    | _, _ => none
  | .sessionWait =>
    match s.session, s.channel.receive with
    | .selecting, none => some ({ s with session := .waiting }, none)
    | _, _ => none
  | .sessionForwarded =>
    match s.session with
    | .forwarding _ _ => some ({ s with session := .selecting }, none)
    | _ => none
  | .serverSend =>
    match s.manager.server with
    | .forwarding message =>
      (s.manager.step .forwarded).bind fun manager => s.sendResponse manager message
    | _ => none
  | .serverReceive =>
    match s.serverWaits, s.channel.receive with
    | false, some ((sender, request), channel) =>
      (s.manager.step (.request request)).map fun manager =>
        ({ s with manager, channel }, some ⟨sender, .server, request⟩)
    | _, _ => none
  | .serverWait =>
    match isSelecting s.manager, s.channel.receive with
    | true, none => some ({ s with serverWaits := true }, none)
    | _, _ => none
  | .inside (.request _) => none
  | .inside .forwarded => none
  | .inside event => (s.inside event).map fun after => (after, none)

def serviceMachine : Machine ServiceSystem ServiceEvent (Option Delivery) where
  init s := s = {}
  step := ServiceSystem.step

/-- Everything that was received came from the other side. -/
def Directed (history : History ServiceSystem ServiceEvent (Option Delivery)) : Prop :=
  ∀ t ∈ history, ∀ delivery ∈ t.output, delivery.receiver ≠ delivery.sender

/-- A send finds its receiver waiting. -/
def SendsToWaiting : ServiceEvent → Prop
  | .sessionSend => s.serverWaits = true
  | .serverSend => s.session = .waiting
  | _ => True

def HandedOver (output : Option Delivery) : Prop :=
  s.channel.items = [] ∧ ∀ delivery ∈ output, delivery.receiver ≠ delivery.sender

variable {s s' : ServiceSystem} {output : Option Delivery}

theorem handedOver_silent (empty : s.channel.items = []) : HandedOver s none := ⟨empty, nofun⟩

theorem sendRequest_waits {request : Map Value} (empty : s.channel.items = [])
    (waits : s.serverWaits = true) (taken : s.sendRequest request = some (s', output)) :
    HandedOver s' output := by
  unfold ServiceSystem.sendRequest at taken
  rw [if_pos waits] at taken
  obtain ⟨manager, -, same⟩ := map_eq_some_iff.mp taken
  cases same
  refine ⟨empty, ?_⟩
  intro delivery mem
  cases mem
  exact nofun

theorem sendResponse_waits {manager : System} {message : Map Value} (empty : s.channel.items = [])
    (waits : s.session = .waiting) (taken : s.sendResponse manager message = some (s', output)) :
    HandedOver s' output := by
  unfold ServiceSystem.sendResponse at taken
  rw [waits] at taken
  cases taken
  refine ⟨empty, ?_⟩
  intro delivery mem
  cases mem
  exact nofun

theorem inside_channel {event : Event} (taken : s.inside event = some s') :
    s'.channel = s.channel := by
  obtain ⟨manager, -, same⟩ := map_eq_some_iff.mp taken
  cases same
  rfl

theorem serviceStep_handedOver {event : ServiceEvent} (empty : s.channel.items = [])
    (waits : SendsToWaiting s event) (taken : s.step event = some (s', output)) :
    HandedOver s' output := by
  have nothing : s.channel.receive = none := Channel.receive_eq_none.mpr empty
  unfold ServiceSystem.step at taken
  split at taken
  · split at taken
    · cases taken
      exact handedOver_silent empty
    · cases taken
      exact handedOver_silent empty
    · cases taken
  · split at taken
    · exact sendRequest_waits empty waits taken
    · cases taken
  · split at taken
    · next found => cases nothing.symm.trans found
    · cases taken
  · split at taken
    · cases taken
      exact handedOver_silent empty
    · cases taken
  · split at taken
    · cases taken
      exact handedOver_silent empty
    · cases taken
  · split at taken
    · obtain ⟨manager, -, sent⟩ := bind_eq_some_iff.mp taken
      exact sendResponse_waits empty waits sent
    · cases taken
  · split at taken
    · next found => cases nothing.symm.trans found
    · cases taken
  · split at taken
    · cases taken
      exact handedOver_silent empty
    · cases taken
  · cases taken
  · cases taken
  · obtain ⟨after, moved, same⟩ := map_eq_some_iff.mp taken
    cases same
    apply handedOver_silent
    rw [inside_channel moved]
    exact empty

/-- Where every send finds its receiver waiting, every map is received by the other side. -/
theorem directed_of_waiting {history : History ServiceSystem ServiceEvent (Option Delivery)}
    {s : ServiceSystem}
    (run : Run serviceMachine (fun _ t => SendsToWaiting t.before t.event) history s) :
    Directed history := by
  have both : s.channel.items = [] ∧ Directed history := by
    apply Run.invariant (fun history s => s.channel.items = [] ∧ Directed history) _ _ run
    · intro s begins
      constructor
      · rw [show s = {} from begins]
      · intro t member
        cases member
    · rintro history t ⟨empty, directed⟩ taken waits
      have handed := serviceStep_handedOver empty waits taken
      refine ⟨handed.1, ?_⟩
      intro t' member
      obtain rfl | earlier := List.mem_cons.mp member
      · exact handed.2
      · exact directed t' earlier
  exact both.2

/-- A request is sent while `initDataServer` has the first one, and its own sender receives it. -/
theorem request_received_by_sender :
    ∃ history s, Run serviceMachine anyStep history s ∧ ¬ Directed history := by
  obtain ⟨history, s, run, found⟩ := Run.of_exec serviceMachine {} rfl
    [.take getSpeed, .sessionSend, .serverReceive, .take getSpeed, .sessionSend, .sessionReceive]
    (fun history _ => ∃ t ∈ history, ∃ delivery ∈ t.output, delivery.receiver = delivery.sender)
    (by decide +kernel)
  refine ⟨history, s, run, ?_⟩
  intro directed
  obtain ⟨t, member, delivery, output, own⟩ := found
  exact directed t member delivery output own

/-- A request and its response find a process that waits. -/
theorem directed_request_response :
    ∃ history s, Run serviceMachine (fun _ t => SendsToWaiting t.before t.event) history s ∧
      (history.filter fun t => t.output.isSome).length = 2 ∧ Directed history := by
  have start : Run serviceMachine (fun _ t => SendsToWaiting t.before t.event) [] {} := .start _ rfl
  have ready := start.fire .serverWait rfl trivial
  have taken := ready.fire (.take getSpeed) rfl trivial
  have sent := taken.fire .sessionSend rfl rfl
  have waits := sent.fire .sessionWait rfl trivial
  have handled := waits.fire (.inside (.handOver sampleEnv)) (by decide +kernel) trivial
  have answered := handled.fire (.inside .respond) (by decide +kernel) trivial
  have received := answered.fire .serverSend (by decide +kernel) rfl
  exact ⟨_, _, received, by decide +kernel, directed_of_waiting received⟩

end Vissr.Core
