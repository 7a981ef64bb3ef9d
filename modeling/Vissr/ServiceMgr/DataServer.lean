import Vissr.ServiceMgr.Dispatch
import Vissr.Process
import Vissr.Run

/-! `initDataServer` and the service manager as processes over `dataChan` and `backendChan`. -/

namespace Vissr.ServiceMgr

open Json List System

/-- At its select, at the send of a request on `dataChan`, at the receive of the response, or at the
send to the core. -/
inductive DataServer where
  | selecting
  | sending (request : Map Value)
  | awaiting
  | forwarding (message : Map Value)

structure System where
  server : DataServer := .selecting
  loop : Process Manager Effect := { state := {} }

/-- An event comes with what the loop then finds around it. -/
inductive Event where
  /-- `initDataServer` receives a request of the core -/
  | request (requestMap : Map Value)
  /-- the request goes over `dataChan` -/
  | handOver (env : Env)
  /-- the interval is over; the event may find its receiver -/
  | interval (env : Env) (subscriptionId : Int) (received : Bool)
  /-- the ticker for range and change filters -/
  | tick (env : Env)
  | feeder (env : Env) (feederMessage : Str)
  /-- the loop receives from the channel of the curve logs -/
  | curveLog (env : Env)
  /-- a session of a curve log sends a pack -/
  | capture (clPack : CLPack)
  /-- the channel of a session is given back -/
  | release (index : Nat)
  /-- the response goes over `dataChan` -/
  | respond
  /-- the notification goes over `backendChan` -/
  | notify
  /-- the loop sends to the feeder, or to the server of the curve logs -/
  | proceed
  /-- the core takes the message -/
  | forwarded

/-- No response is expected to a request to kill subscriptions. -/
def expectsResponse (requestMap : Map Value) : Bool :=
  getStr requestMap "action" ≠ some "internal-killsubscriptions".toList

variable (s : System)

def System.select (handler : Loop Manager) : Option System :=
  if s.loop.resting then some { s with loop := s.loop.handle handler } else none

/-- The event is gone unless `initDataServer` is there to receive it. -/
def System.notifyInterval (env : Env) (subscriptionId : Int) (received : Bool) :
    Option System :=
  if s.loop.resting then
    match intervalEvent env subscriptionId s.loop.state, s.server, received with
    | none, _, _ => some { s with loop := { s.loop with stopped := true } }
    | some (some message), .selecting, true => some { s with server := .forwarding message }
    | _, _, true => none
    | _, _, false => some s
  else none

def receivePack (mgr : Manager) : Option (CLPack × Manager) :=
  match mgr.clChannel with
  | ⟨[], _⟩ => none
  | ⟨clPack :: packs, bounded⟩ =>
    some (clPack, { mgr with clChannel := ⟨packs, Nat.le_of_succ_le bounded⟩ })

def deallocateTriggChannel (index : Nat) (mgr : Manager) : Manager :=
  if mgr.triggChannelList[index]? = some true then
    { mgr with
      triggChannelList := mgr.triggChannelList.set index false
      numOfClSessions := mgr.numOfClSessions - 1 }
  else mgr

def System.updateManager (mgr : Manager) : System :=
  { s with loop := { s.loop with state := mgr } }

def System.step : Event → Option System
  | .request requestMap =>
    match s.server with
    | .selecting => some { s with server := .sending requestMap }
    | _ => none
  | .handOver env =>
    match s.server with
    | .sending requestMap =>
      { s with server := if expectsResponse requestMap then .awaiting else .selecting }.select
        (handleRequest env requestMap s.loop.state)
    | _ => none
  | .interval env subscriptionId received => s.notifyInterval env subscriptionId received
  | .tick env => s.select (handleRCTick env s.loop.state)
  | .feeder env feederMessage =>
    s.select (handleFeederNotificationMessage env feederMessage s.loop.state)
  | .curveLog env =>
    match receivePack s.loop.state with
    | some (clPack, mgr) => s.select (handleCurveLogNotification env clPack mgr)
    | none => none
  | .capture clPack =>
    if room : s.loop.state.clChannel.packs.length < clCapacity then
      some (s.updateManager (sendTo clPack s.loop.state room))
    else none
  | .release index => some (s.updateManager (deallocateTriggChannel index s.loop.state))
  | .respond =>
    match s.server, s.loop.pending with
    | .awaiting, .dataChan message :: _ => some ⟨.forwarding message, s.loop.advance⟩
    | _, _ => none
  | .notify =>
    match s.server, s.loop.pending with
    | .selecting, .backendChan message :: _ => some ⟨.forwarding message, s.loop.advance⟩
    | _, _ => none
  | .proceed =>
    match s.loop.pending with
    | .toFeeder _ :: _ => some { s with loop := s.loop.advance }
    | .clRouterChan _ :: _ => some { s with loop := s.loop.advance }
    | _ => none
  | .forwarded =>
    match s.server with
    | .forwarding _ => some { s with server := .selecting }
    | _ => none

def machine : Machine System Event Unit where
  init s := s = {}
  step s event := (s.step event).map fun after => (after, ())

def System.handler : Event → Option (Loop Manager)
  | .handOver env =>
    match s.server with
    | .sending requestMap => some (handleRequest env requestMap s.loop.state)
    | _ => none
  | .tick env => some (handleRCTick env s.loop.state)
  | .feeder env feederMessage =>
    some (handleFeederNotificationMessage env feederMessage s.loop.state)
  | .curveLog env =>
    (receivePack s.loop.state).map fun (clPack, mgr) => handleCurveLogNotification env clPack mgr
  | _ => none

def Event.passes : Event → Effect → Bool
  | .respond, .dataChan _ => true
  | .notify, .backendChan _ => true
  | .proceed, .toFeeder _ => true
  | .proceed, .clRouterChan _ => true
  | _, _ => false

variable {s s' : System} {event : Event}

theorem System.select_some {handler : Loop Manager} (taken : s.select handler = some s') :
    s.loop.resting = true ∧ s'.loop = s.loop.handle handler := by
  rw [select] at taken
  split_ifs at taken with ready
  cases taken
  exact ⟨ready, rfl⟩

theorem System.notifyInterval_pending {env : Env} {subId : Int} {received : Bool}
    (taken : s.notifyInterval env subId received = some s') :
    s'.loop.pending = s.loop.pending := by
  simp only [notifyInterval] at taken
  split_ifs at taken
  split at taken
  · cases taken
    rfl
  · cases taken
    rfl
  · cases taken
  · cases taken
    rfl

theorem System.step_loop (taken : s.step event = some s') : s'.loop.pending = s.loop.pending ∨
      (∃ handler, s.handler event = some handler ∧ s.loop.resting = true ∧
        s'.loop = s.loop.handle handler) ∨
      ∃ effect, s.loop.pending.head? = some effect ∧ event.passes effect = true ∧
        s'.loop = s.loop.advance := by
  cases event with
  | request | forwarded =>
    simp only [step] at taken
    split at taken
    · cases taken
      exact .inl rfl
    · cases taken
  | handOver env =>
    simp only [step] at taken
    split at taken
    · next requestMap offered =>
      obtain ⟨ready, loop⟩ := select_some taken
      refine .inr (.inl ⟨handleRequest env requestMap s.loop.state, ?_, ready, loop⟩)
      simp only [handler, offered]
    · cases taken
  | interval => exact .inl (notifyInterval_pending taken)
  | tick | feeder => exact .inr (.inl ⟨_, rfl, select_some taken⟩)
  | curveLog env =>
    simp only [step] at taken
    split at taken
    · next clPack mgr received =>
      obtain ⟨ready, loop⟩ := select_some taken
      refine .inr (.inl ⟨handleCurveLogNotification env clPack mgr, ?_, ready, loop⟩)
      simp only [handler, received, Option.map_some]
    · cases taken
  | capture =>
    simp only [step] at taken
    split_ifs at taken
    cases taken
    exact .inl rfl
  | release =>
    cases taken
    exact .inl rfl
  | respond | notify =>
    simp only [step] at taken
    split at taken
    · next pending =>
      cases taken
      exact .inr (.inr ⟨_, congrArg head? pending, rfl, rfl⟩)
    · cases taken
  | proceed =>
    simp only [step] at taken
    split at taken
    · next pending =>
      cases taken
      exact .inr (.inr ⟨_, congrArg head? pending, rfl, rfl⟩)
    · next pending =>
      cases taken
      exact .inr (.inr ⟨_, congrArg head? pending, rfl, rfl⟩)
    · cases taken

end Vissr.ServiceMgr
