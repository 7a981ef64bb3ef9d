import Vissr.Channel
import Vissr.ServiceMgr.DataServer
import Vissr.ServiceMgr.Feeder

/-! The service manager, the feeder front end and the curve log server as processes. -/

namespace Vissr.ServiceMgr

open Json Option

inductive CurveLogEffect where
  /-- a message for a session, lost when its channel is full -/
  | clServerChan (index : Nat) (message : Str)
  /-- the channel of a session is given back -/
  | deallocate (index : Nat)

abbrev CurveLogLoop := Act CurveLogEffect

def triggerSessions (test : TriggRoutingElem → Bool) (message : Str)
    (routingDataList : List TriggRoutingData) : CurveLogLoop Unit :=
  Act.emitAll (routingDataList.flatMap fun routingData =>
    (routingData.triggRoutingList.filter test).map fun elem => .clServerChan elem.index message)

def deallocateTriggChannels (routingData : TriggRoutingData) : CurveLogLoop Unit :=
  Act.emitAll (routingData.triggRoutingList.map fun elem => .deallocate elem.index)

def endSessions (subscriptionId : Str) :
    List TriggRoutingData → CurveLogLoop (List TriggRoutingData)
  | [] => return []
  | routingData :: rest => do
      if routingData.subscriptionId = subscriptionId then
        deallocateTriggChannels routingData
        endSessions subscriptionId rest
      else
        let others ← endSessions subscriptionId rest
        return routingData :: others

def handleCurveLogServerMessage (message : Str) (routingDataList : List TriggRoutingData) :
    CurveLogLoop (List TriggRoutingData) :=
  match unmarshalMap message with
  | none => return routingDataList
  | some messageMap =>
    match getStr messageMap "action" with
    | none => return routingDataList
    | some action =>
      if action = "subscribe" then do
        if getStr messageMap "status" = some "ok".toList then
          triggerSessions (fun _ => true) message routingDataList
        return routingDataList
      else if action = "unsubscribe" then
        match getStr messageMap "subscriptionId" with
        | some subscriptionId => endSessions subscriptionId routingDataList
        | none => return routingDataList
      else if action = "subscription" then
        match getStr messageMap "path" with
        | some path => do
            triggerSessions (fun elem => path ∈ elem.path) message routingDataList
            return routingDataList
        | none => return routingDataList
      else return routingDataList

def deallocated (effects : List CurveLogEffect) : List Nat := effects.filterMap fun
    | .deallocate index => some index
    | _ => none

structure FeederSystem where
  /-- the loop, with the server of its requests -/
  server : System := {}
  toFeeder : Channel Str feederBuf := {}
  frontend : Process Frontend FrontendEffect := { state := {} }
  fromFeederRorC : Channel Str feederBuf := {}
  fromFeederCl : Channel Str feederBuf := {}
  routingDataList : List TriggRoutingData := []

inductive FeederEvent where
  /-- what does not concern the feeders -/
  | server (event : Event)
  /-- the loop sends on `toFeeder` -/
  | send
  /-- the loop receives from `fromFeederRorC` -/
  | receive (env : Env)
  /-- the loop tells the server of the curve logs of new sessions -/
  | route
  /-- the front end receives from `toFeeder` -/
  | take
  /-- the front end receives a message of a feeder -/
  | notify (message : Str)
  /-- the front end writes a line, or sends on one of its channels -/
  | forward
  /-- the server of the curve logs receives from `fromFeederCl` -/
  | curveLog

def Event.isInternal : Event → Bool
  | .feeder _ _ => false
  | .release _ => false
  | .proceed => false
  | _ => true

def System.advance (s : System) : System := { s with loop := s.loop.advance }

def FeederSystem.step (s : FeederSystem) : FeederEvent → Option FeederSystem
  | .server event =>
    if event.isInternal then (s.server.step event).map fun server => { s with server } else none
  | .send =>
    match s.server.loop.pending with
    | .toFeeder message :: _ =>
      (s.toFeeder.send message).map fun toFeeder =>
        { s with toFeeder, server := s.server.advance }
    | _ => none
  | .receive env =>
    s.fromFeederRorC.receive.bind fun (message, fromFeederRorC) =>
      (s.server.step (.feeder env message)).map fun server =>
        { s with server, fromFeederRorC }
  | .route =>
    match s.server.loop.pending with
    | .clRouterChan routingData :: _ =>
      some { s with
        server := s.server.advance
        routingDataList := s.routingDataList ++ [routingData] }
    | _ => none
  | .take =>
    if s.frontend.resting then
      s.toFeeder.receive.map fun (message, toFeeder) =>
        { s with toFeeder, frontend := s.frontend.handle (receiveToFeeder message s.frontend.state) }
    else none
  | .notify message =>
    if s.frontend.resting then
      some { s with frontend := s.frontend.handle (receiveFromFeeders message s.frontend.state) }
    else none
  | .forward =>
    match s.frontend.pending with
    | [] => none
    | .write _ _ :: _ => some { s with frontend := s.frontend.advance }
    | .fromFeederRorC message :: _ =>
      (s.fromFeederRorC.send message).map fun fromFeederRorC =>
        { s with fromFeederRorC, frontend := s.frontend.advance }
    | .fromFeederCl message :: _ =>
      (s.fromFeederCl.send message).map fun fromFeederCl =>
        { s with fromFeederCl, frontend := s.frontend.advance }
  | .curveLog =>
    s.fromFeederCl.receive.bind fun (message, fromFeederCl) =>
      let handled := handleCurveLogServerMessage message s.routingDataList
      handled.result.map fun routingDataList =>
        { s with
          fromFeederCl, routingDataList
          server := s.server.updateManager ((deallocated handled.effects).foldl
            (fun mgr index => deallocateTriggChannel index mgr) s.server.loop.state) }

def feederSystem : Machine FeederSystem FeederEvent Unit where
  init s := s = {}
  step s event := (s.step event).map fun after => (after, ())

inductive FeederStep (s : FeederSystem) : FeederEvent → FeederSystem → Prop where
  | server {event : Event} {server : System} (internal : event.isInternal = true)
      (stepped : s.server.step event = some server) :
      FeederStep s (.server event) { s with server }
  | send {message : Str} {rest : List Effect} {toFeeder : Channel Str feederBuf}
      (pending : s.server.loop.pending = .toFeeder message :: rest)
      (sent : s.toFeeder.send message = some toFeeder) :
      FeederStep s .send { s with toFeeder, server := s.server.advance }
  | receive {env : Env} {message : Str} {fromFeederRorC : Channel Str feederBuf} {server : System}
      (received : s.fromFeederRorC.receive = some (message, fromFeederRorC))
      (stepped : s.server.step (.feeder env message) = some server) :
      FeederStep s (.receive env) { s with server, fromFeederRorC }
  | route {routingData : TriggRoutingData} {rest : List Effect}
      (pending : s.server.loop.pending = .clRouterChan routingData :: rest) :
      FeederStep s .route
        { s with
          server := s.server.advance
          routingDataList := s.routingDataList ++ [routingData] }
  | take {message : Str} {toFeeder : Channel Str feederBuf} (ready : s.frontend.resting = true)
      (received : s.toFeeder.receive = some (message, toFeeder)) :
      FeederStep s .take
        { s with
          toFeeder
          frontend := s.frontend.handle (receiveToFeeder message s.frontend.state) }
  | notify {message : Str} (ready : s.frontend.resting = true) :
      FeederStep s (.notify message)
        { s with frontend := s.frontend.handle (receiveFromFeeders message s.frontend.state) }
  | write {infoType : InfoType} {line : Str} {rest : List FrontendEffect}
      (pending : s.frontend.pending = .write infoType line :: rest) :
      FeederStep s .forward { s with frontend := s.frontend.advance }
  | forwardRorC {message : Str} {rest : List FrontendEffect}
      {fromFeederRorC : Channel Str feederBuf}
      (pending : s.frontend.pending = .fromFeederRorC message :: rest)
      (sent : s.fromFeederRorC.send message = some fromFeederRorC) :
      FeederStep s .forward { s with fromFeederRorC, frontend := s.frontend.advance }
  | forwardCl {message : Str} {rest : List FrontendEffect} {fromFeederCl : Channel Str feederBuf}
      (pending : s.frontend.pending = .fromFeederCl message :: rest)
      (sent : s.fromFeederCl.send message = some fromFeederCl) :
      FeederStep s .forward { s with fromFeederCl, frontend := s.frontend.advance }
  | curveLog {fromFeederCl : Channel Str feederBuf} {routingDataList : List TriggRoutingData}
      {mgr : Manager} :
      FeederStep s .curveLog
        { s with fromFeederCl, routingDataList, server := s.server.updateManager mgr }

theorem FeederSystem.step_cases {s s' : FeederSystem} {event : FeederEvent}
    (taken : s.step event = some s') : FeederStep s event s' := by
  cases event with
  | server =>
    simp only [FeederSystem.step] at taken
    split_ifs at taken with internal
    obtain ⟨server, stepped, rfl⟩ := map_eq_some_iff.mp taken
    exact .server internal stepped
  | send =>
    simp only [FeederSystem.step] at taken
    split at taken
    · next message rest pending =>
      obtain ⟨toFeeder, sent, rfl⟩ := map_eq_some_iff.mp taken
      exact .send pending sent
    · cases taken
  | receive =>
    obtain ⟨⟨message, channel⟩, received, answered⟩ := bind_eq_some_iff.mp taken
    obtain ⟨server, stepped, rfl⟩ := map_eq_some_iff.mp answered
    exact .receive received stepped
  | route =>
    simp only [FeederSystem.step] at taken
    split at taken
    · next routingData rest pending =>
      cases taken
      exact .route pending
    · cases taken
  | take =>
    simp only [FeederSystem.step] at taken
    split_ifs at taken with ready
    obtain ⟨⟨message, toFeeder⟩, received, rfl⟩ := map_eq_some_iff.mp taken
    exact .take ready received
  | notify =>
    simp only [FeederSystem.step] at taken
    split_ifs at taken with ready
    cases taken
    exact .notify ready
  | forward =>
    simp only [FeederSystem.step] at taken
    split at taken
    · cases taken
    · next infoType line rest pending =>
      cases taken
      exact .write pending
    · next message rest pending =>
      obtain ⟨channel, sent, rfl⟩ := map_eq_some_iff.mp taken
      exact .forwardRorC pending sent
    · next message rest pending =>
      obtain ⟨channel, sent, rfl⟩ := map_eq_some_iff.mp taken
      exact .forwardCl pending sent
  | curveLog =>
    obtain ⟨⟨message, channel⟩, received, answered⟩ := bind_eq_some_iff.mp taken
    obtain ⟨routingDataList, handled, rfl⟩ := map_eq_some_iff.mp answered
    exact .curveLog

end Vissr.ServiceMgr
