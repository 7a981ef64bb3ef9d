import Vissr.Table
import Vissr.ServiceMgr.FeederSystem
import Vissr.ServiceMgr.Lockstep

/-! The sessions of the curve logs as processes: the loop of the service manager, which starts and
closes them, their capture threads, and the server that gives their channels back. The handlers are
taken apart where others can take a step in between. -/

namespace Vissr.ServiceMgr.Sessions

open Json Option

inductive Stage where
  | waiting
  | sending (packs : List CLPack)
  | ended
  deriving DecidableEq

/-- That its subscription was removed is noted only. -/
structure CaptureThread where
  subscriptionId : Int
  triggChannelIndex : Nat
  closeClSession : Bool := false
  stage : Stage := .waiting
  orphaned : Bool := false
  deriving DecidableEq

/-- The groups of a curve log are in one list for each loop of the dispatcher. -/
inductive Doing where
  | select
  /-- before the next group -/
  | starting (subscriptionId : Int) (groups : List (List (List Str)))
      (routing : List TriggRoutingElem)
  /-- a session is counted, and has no channel yet -/
  | allocating (subscriptionId : Int) (group : List Str) (groups : List (List (List Str)))
      (routing : List TriggRoutingElem)
  /-- at the send of the first point of a session on `CLChannel` -/
  | sending (subscriptionId : Int) (index : Nat) (group : List Str)
      (groups : List (List (List Str))) (routing : List TriggRoutingElem)
  /-- at the send on `clRouterChan` -/
  | routing (subscriptionId : Int) (routing : List TriggRoutingElem)
  /-- at the send of a request on `toFeeder` -/
  | forwarding (message : Str)
  /-- before the next subscription of a client that is killed -/
  | killing (routerId : Str)

structure State where
  mgr : Manager := {}
  doing : Doing := .select
  threads : List CaptureThread := []
  /-- requests on their way from the loop to the server of the curve logs -/
  messages : List Str := []
  routingDataList : List TriggRoutingData := []
  /-- the entries whose channels are given back, and the sessions to be uncounted -/
  releasing : List TriggRoutingData := []
  decrements : Nat := 0

inductive Event where
  | subscribe (env : Env) (requestMap : Map Value)
  | unsubscribe (requestMap : Map Value)
  | kill (requestMap : Map Value)
  | cancel (requestMap : Map Value)
  /-- the loop receives from `CLChannel` -/
  | notification (env : Env)
  /-- the loop goes on with what it is doing -/
  | proceed (env : Env)
  /-- the routing data go over `clRouterChan` -/
  | route
  /-- a round of a capture thread, with the data it has to send -/
  | round (i : Nat) (dataPacks : Option (List Str))
  /-- a capture thread sends, or is through with its sends -/
  | advance (i : Nat)
  /-- the server receives a message -/
  | serve
  | release
  | decrement

/-- A request goes to a handler by its action. -/
def Event.dispatched : Event → Bool
  | .subscribe _ requestMap => decide (actionOf requestMap = .subscribe)
  | .unsubscribe requestMap => decide (actionOf requestMap = .unsubscribe)
  | .kill requestMap => decide (actionOf requestMap = .killSubscriptions)
  | .cancel requestMap => decide (actionOf requestMap = .cancelSubscription)
  | _ => true

def countUp (mgr : Manager) : Manager :=
  { mgr with subscriptionId := wrap64 (mgr.subscriptionId + 1) }

def activate (env : Env) (subscription : SubscriptionState) (s : State) : State :=
  let mgr := { s.mgr with subscriptionList := s.mgr.subscriptionList ++ [subscription] }
  match activation subscription.filterList with
  | none => { s with mgr := countUp mgr }
  | some filter =>
    if filter.type = "curvelog" then
      let dims := populateDimLists env.signalDimensions subscription.path
      { s with
        mgr
        doing := .starting subscription.subscriptionId
          [dims.dim1List, dims.dim2List, dims.dim3List] [] }
    else
      { s with mgr := countUp (activateInterval subscription.subscriptionId
          (getIntervalPeriod filter.parameter) mgr) }

def incrementClSessionsIfAvailable (mgr : Manager) : Option Manager :=
  if maxClSessions ≤ mgr.numOfClSessions then none
  else some { mgr with numOfClSessions := mgr.numOfClSessions + 1 }

def decrementClSessions (mgr : Manager) : Manager :=
  { mgr with numOfClSessions := mgr.numOfClSessions - 1 }

def allocateTriggChannelIndex (mgr : Manager) : Option (Nat × Manager) :=
  (mgr.triggChannelList.findIdx? (· = false)).map fun index =>
    (index, { mgr with triggChannelList := mgr.triggChannelList.set index true })

variable (subscriptionId : Int)

/-- A loop that finds no resources is left. -/
def start (groups : List (List (List Str)))
    (routing : List TriggRoutingElem) (s : State) : State :=
  match groups with
  | [] =>
    { s with
      mgr := setSubscriptionListThreads subscriptionId routing.length s.mgr
      doing := .routing subscriptionId routing }
  | [] :: rest => { s with doing := .starting subscriptionId rest routing }
  | (group :: groups) :: rest =>
    match incrementClSessionsIfAvailable s.mgr with
    | none => { s with doing := .starting subscriptionId rest routing }
    | some mgr => { s with mgr, doing := .allocating subscriptionId group (groups :: rest) routing }

def allocate (group : List Str) (groups : List (List (List Str)))
    (routing : List TriggRoutingElem) (s : State) : State :=
  match allocateTriggChannelIndex s.mgr with
  | none =>
    { s with
      mgr := decrementClSessions s.mgr
      doing := .starting subscriptionId groups.tail routing }
  | some (index, mgr) => { s with mgr, doing := .sending subscriptionId index group groups routing }

def launch (env : Env) (subscriptionId : Int) (index : Nat) (group : List Str)
    (groups : List (List (List Str))) (routing : List TriggRoutingElem) (s : State) :
    Option State :=
  if room : s.mgr.clChannel.packs.length < clCapacity then
    some { s with
      mgr := sendTo (returnSingleDp env subscriptionId group) s.mgr room
      threads := s.threads ++ [{ subscriptionId, triggChannelIndex := index }]
      doing := .starting subscriptionId groups (routing ++ [⟨index, group⟩]) }
  else none

def orphan (threads : List CaptureThread) : List CaptureThread := threads.map fun thread =>
    if thread.subscriptionId = subscriptionId then { thread with orphaned := true } else thread

def deactivate (subscriptionId : Str) (s : State) : State :=
  match deactivateSubscription subscriptionId s.mgr with
  | none => s
  | some mgr => { s with mgr, threads := orphan (atoiClamped subscriptionId) s.threads }

def firstOf (routerId : Str) (mgr : Manager) : Option Str :=
  (mgr.subscriptionList.find? fun subscription => subscription.routerId = routerId).map
    fun subscription => itoa subscription.subscriptionId

def gatedClient (requestMap : Map Value) (mgr : Manager) : Option Str :=
  (getStr requestMap "gatingId").bind fun gatingId =>
    let routerId := (getSubscriptionData mgr.subscriptionList gatingId).1
    if routerId = [] then none else some routerId

/-- The entries whose channels a message gives back. -/
def isEnded (message : Str) (routingData : TriggRoutingData) : Bool :=
  match unmarshalMap message with
  | none => false
  | some messageMap =>
    decide (getStr messageMap "action" = some "unsubscribe".toList ∧
      getStr messageMap "subscriptionId" = some routingData.subscriptionId)

def freeTriggChannels : List TriggRoutingElem → List Bool → List Bool × Nat
  | [], triggChannelList => (triggChannelList, 0)
  | elem :: rest, triggChannelList =>
    if triggChannelList[elem.index]? = some true then
      let freed := freeTriggChannels rest (triggChannelList.set elem.index false)
      (freed.1, freed.2 + 1)
    else freeTriggChannels rest triggChannelList

variable (s : State)

def State.serverIdle : Bool := s.releasing.isEmpty && decide (s.decrements = 0)

def CaptureThread.round (closeClSubId : Int) (dataPacks : Option (List Str))
    (thread : CaptureThread) : CaptureThread :=
  { thread with
    closeClSession := thread.closeClSession || decide (closeClSubId = thread.subscriptionId)
    stage :=
      match dataPacks with
      | none => .waiting
      | some dataPacks =>
        .sending (dataPacks.map fun dataPack =>
          { dataPack, subscriptionId := thread.subscriptionId }) }

def CaptureThread.finish (thread : CaptureThread) : CaptureThread :=
  { thread with stage := if thread.closeClSession then .ended else .waiting }

def State.setThread (i : Nat) (thread : CaptureThread) : State :=
  { s with threads := s.threads.set i thread }

def State.advance (i : Nat) : Option State :=
  match s.threads[i]? with
  | none => none
  | some thread =>
    match thread.stage with
    | .sending [] => some (s.setThread i thread.finish)
    | .sending (pack :: packs) =>
      if room : s.mgr.clChannel.packs.length < clCapacity then
        some { s.setThread i { thread with stage := .sending packs } with
          mgr := sendTo pack s.mgr room }
      else none
    | _ => none

def State.proceed (env : Env) (s : State) : Option State :=
  match s.doing with
  | .starting subscriptionId groups routing => some (start subscriptionId groups routing s)
  | .allocating subscriptionId group groups routing =>
    some (allocate subscriptionId group groups routing s)
  | .sending subscriptionId index group groups routing =>
    launch env subscriptionId index group groups routing s
  | .forwarding message => some { s with messages := s.messages ++ [message], doing := .select }
  | .killing routerId =>
    match firstOf routerId s.mgr with
    | none => some { s with doing := .select }
    | some subscriptionId => some (deactivate subscriptionId s)
  | .select | .routing _ _ => none

def State.select : Event → Option State
  | .subscribe env requestMap =>
    match readSubscription env requestMap s.mgr.subscriptionId with
    | .error _ => some s
    | .ok subscription => some (activate env subscription s)
  | .unsubscribe requestMap =>
    match getStr requestMap "subscriptionId" with
    | none => some s
    | some subscriptionId =>
      if (deactivateSubscription subscriptionId s.mgr).isSome then
        some { deactivate subscriptionId s with
          doing := .forwarding (Value.obj (delete "origin" requestMap)).marshal }
      else some s
  | .kill requestMap =>
    match getStr requestMap "RouterId" with
    | none => some s
    | some routerId => some { s with doing := .killing routerId }
  | .cancel requestMap =>
    match (gatedClient requestMap s.mgr).bind fun routerId => firstOf routerId s.mgr with
    | none => some s
    | some subscriptionId => some (deactivate subscriptionId s)
  | .notification env =>
    match receivePack s.mgr with
    | none => none
    | some (clPack, mgr) =>
      (handleCurveLogNotification env clPack mgr).result.map fun mgr => { s with mgr }
  | _ => none

def State.step : Event → Option State
  | .proceed env => s.proceed env
  | .route =>
    match s.doing with
    | .routing subscriptionId routing =>
      if s.serverIdle then
        some { s with
          mgr := countUp s.mgr
          doing := .select
          routingDataList := s.routingDataList ++ [⟨itoa subscriptionId, routing⟩] }
      else none
    | _ => none
  | .round i dataPacks =>
    match s.threads[i]? with
    | none => none
    | some thread =>
      if thread.stage = .waiting then
        some (s.setThread i (thread.round s.mgr.closeClSubId dataPacks))
      else none
  | .advance i => s.advance i
  | .serve =>
    match s.messages with
    | [] => none
    | message :: messages =>
      if s.serverIdle then
        some { s with
          messages
          releasing := s.routingDataList.filter (isEnded message)
          routingDataList := s.routingDataList.filter fun entry => !isEnded message entry }
      else none
  | .release =>
    match s.releasing, s.decrements with
    | entry :: releasing, 0 =>
      let freed := freeTriggChannels entry.triggRoutingList s.mgr.triggChannelList
      some { s with
        releasing
        decrements := freed.2
        mgr := { s.mgr with triggChannelList := freed.1 } }
    | _, _ => none
  | .decrement =>
    match s.decrements with
    | 0 => none
    | decrements + 1 => some { s with decrements, mgr := decrementClSessions s.mgr }
  | event =>
    match s.doing with
    | .select => if event.dispatched then s.select event else none
    | _ => none

def sessionMachine : Machine State Event Unit where
  init s := s = {}
  step s event := (s.step event).map fun after => (after, ())

def CaptureThread.live (thread : CaptureThread) : Bool := decide (thread.stage ≠ .ended)

variable (event : Event)

def deactivated : Option Str :=
  match s.doing, event with
  | .select, .unsubscribe requestMap => getStr requestMap "subscriptionId"
  | .select, .cancel requestMap =>
    (gatedClient requestMap s.mgr).bind fun routerId => firstOf routerId s.mgr
  | .killing routerId, .proceed _ => firstOf routerId s.mgr
  | _, _ => none

def subscriptionOf (mgr : Manager) : Option SubscriptionState :=
  (getSubcriptionStateIndex subscriptionId mgr.subscriptionList).bind fun index =>
    mgr.subscriptionList[index]?

def removed : Option SubscriptionState :=
  (deactivated s event).bind fun subscriptionId => subscriptionOf (atoiClamped subscriptionId) s.mgr

def added : Option SubscriptionState :=
  match s.doing, event with
  | .select, .subscribe env requestMap =>
    (readSubscription env requestMap s.mgr.subscriptionId).toOption
  | _, _ => none

def begins (subscription : SubscriptionState) : Bool :=
  (activation subscription.filterList).any fun filter =>
    decide (¬ filter.type = "curvelog".toList ∧ 0 < getIntervalPeriod filter.parameter)

def Doing.isIdle : Doing → Bool
  | .select | .forwarding _ | .killing _ => true
  | _ => false

def Event.isLoop : Event → Bool
  | .subscribe _ _ | .unsubscribe _ | .kill _ | .cancel _ | .proceed _ => true
  | _ => false

def countDown (index : Nat) (subscriptionList : List SubscriptionState) : List SubscriptionState :=
  subscriptionList.modify index fun subscription =>
    { subscription with subscriptionThreads := subscription.subscriptionThreads - 1 }

/-- The loop goes on; a subscription is added or removed; a pack comes for none, for one that has
ended, or for another; the dispatcher, the threads and the server take theirs. -/
inductive Taken (s : State) : Event → State → Prop
  | passed {event : Event} (doing : Doing) (messages : List Str) (idle : s.doing.isIdle = true)
      (next : doing.isIdle = true) (loop : event.isLoop = true) (unadded : added s event = none)
      (kept : removed s event = none) : Taken s event { s with doing, messages }
  | subscribed {env : Env} {requestMap : Map Value} {subscription : SubscriptionState}
      (subscriptionId : Int) (doing : Doing) (resting : s.doing = .select)
      (read : added s (.subscribe env requestMap) = some subscription)
      (next : doing.isIdle = true ∨ ∃ id groups, doing = .starting id groups []) :
      Taken s (.subscribe env requestMap) { s with
        mgr := { s.mgr with
          subscriptionList := s.mgr.subscriptionList ++ [subscription]
          tickerIndexList :=
            if begins subscription then
              Table.claim 0 subscription.subscriptionId s.mgr.tickerIndexList
            else s.mgr.tickerIndexList
          subscriptionId }
        doing }
  | ended {event : Event} {subscription : SubscriptionState} (index : Nat) (doing : Doing)
      (idle : s.doing.isIdle = true) (next : doing.isIdle = true) (loop : event.isLoop = true)
      (unadded : added s event = none) (gone : removed s event = some subscription)
      (here : s.mgr.subscriptionList[index]? = some subscription) :
      Taken s event { s with
        mgr := { stopSubscription subscription s.mgr with
          subscriptionList := removeFromsubscriptionList s.mgr.subscriptionList index }
        threads := orphan subscription.subscriptionId s.threads
        doing }
  | unknown {env : Env} {clPack : CLPack} {mgr : Manager} (resting : s.doing = .select)
      (received : receivePack s.mgr = some (clPack, mgr))
      (missed : subscriptionOf clPack.subscriptionId mgr = none) :
      Taken s (.notification env) { s with mgr := { mgr with closeClSubId := -1 } }
  | counted {env : Env} {clPack : CLPack} {mgr : Manager} {subscription : SubscriptionState}
      (index : Nat) (resting : s.doing = .select)
      (received : receivePack s.mgr = some (clPack, mgr))
      (found : subscriptionOf clPack.subscriptionId mgr = some subscription)
      (here : mgr.subscriptionList[index]? = some subscription) (last : Bool)
      (ends : last = decide (clPack.subscriptionId = mgr.closeClSubId ∧
        subscription.subscriptionThreads - 1 = 0)) :
      Taken s (.notification env) { s with
        mgr := { mgr with
          closeClSubId := if last then -1 else mgr.closeClSubId
          subscriptionList :=
            if last then removeFromsubscriptionList (countDown index mgr.subscriptionList) index
            else countDown index mgr.subscriptionList } }
  | skipped {env : Env} {id : Int} {groups : List (List (List Str))}
      {elems : List TriggRoutingElem} (rest : List (List (List Str)))
      (doing : s.doing = .starting id groups elems) :
      Taken s (.proceed env) { s with doing := .starting id rest elems }
  | planned {env : Env} {id : Int} {elems : List TriggRoutingElem}
      (doing : s.doing = .starting id [] elems) :
      Taken s (.proceed env) { s with
        mgr := setSubscriptionListThreads id elems.length s.mgr, doing := .routing id elems }
  | started {env : Env} {id : Int} {groups : List (List (List Str))}
      {elems : List TriggRoutingElem} (group : List Str) (rest : List (List (List Str)))
      (doing : s.doing = .starting id groups elems) :
      Taken s (.proceed env) { s with
        mgr := { s.mgr with numOfClSessions := s.mgr.numOfClSessions + 1 }
        doing := .allocating id group rest elems }
  | refused {env : Env} {id : Int} {group : List Str} {groups : List (List (List Str))}
      {elems : List TriggRoutingElem} (doing : s.doing = .allocating id group groups elems)
      (full : (allocateTriggChannelIndex s.mgr).isSome = false) :
      Taken s (.proceed env) { s with
        mgr := decrementClSessions s.mgr, doing := .starting id groups.tail elems }
  | allocated {env : Env} {id : Int} {group : List Str} {groups : List (List (List Str))}
      {elems : List TriggRoutingElem} {index : Nat}
      (doing : s.doing = .allocating id group groups elems)
      (granted : (allocateTriggChannelIndex s.mgr).isSome = true)
      (free : s.mgr.triggChannelList[index]? = some false) :
      Taken s (.proceed env) { s with
        mgr := { s.mgr with triggChannelList := s.mgr.triggChannelList.set index true }
        doing := .sending id index group groups elems }
  | launched {env : Env} {id : Int} {index : Nat} {group : List Str}
      {groups : List (List (List Str))} {elems : List TriggRoutingElem}
      (doing : s.doing = .sending id index group groups elems)
      (room : s.mgr.clChannel.packs.length < clCapacity) :
      Taken s (.proceed env) { s with
        mgr := sendTo (returnSingleDp env id group) s.mgr room
        threads := s.threads ++ [{ subscriptionId := id, triggChannelIndex := index }]
        doing := .starting id groups (elems ++ [⟨index, group⟩]) }
  | routed {id : Int} {elems : List TriggRoutingElem} (doing : s.doing = .routing id elems) :
      Taken s .route { s with
        mgr := countUp s.mgr
        doing := .select
        routingDataList := s.routingDataList ++ [⟨itoa id, elems⟩] }
  | round {i : Nat} {thread : CaptureThread} (dataPacks : Option (List Str))
      (found : s.threads[i]? = some thread) (running : thread.live = true) :
      Taken s (.round i dataPacks)
        (s.setThread i (thread.round s.mgr.closeClSubId dataPacks))
  | finished {i : Nat} {thread : CaptureThread} (found : s.threads[i]? = some thread)
      (running : thread.live = true) (sending : thread.stage = .sending []) :
      Taken s (.advance i) (s.setThread i thread.finish)
  | sent {i : Nat} {thread : CaptureThread} {pack : CLPack} {packs : List CLPack}
      (found : s.threads[i]? = some thread) (running : thread.live = true)
      (sending : thread.stage = .sending (pack :: packs))
      (room : s.mgr.clChannel.packs.length < clCapacity) :
      Taken s (.advance i) { s.setThread i { thread with stage := .sending packs } with
        mgr := sendTo pack s.mgr room }
  | served {message : Str} {messages : List Str} (first : s.messages = message :: messages)
      (idle : s.releasing = [] ∧ s.decrements = 0) :
      Taken s .serve { s with
        messages
        releasing := s.routingDataList.filter (isEnded message)
        routingDataList := s.routingDataList.filter fun entry => !isEnded message entry }
  | released {entry : TriggRoutingData} {releasing : List TriggRoutingData}
      (first : s.releasing = entry :: releasing) (paid : s.decrements = 0) :
      Taken s .release { s with
        releasing
        decrements := (freeTriggChannels entry.triggRoutingList s.mgr.triggChannelList).2
        mgr := { s.mgr with triggChannelList :=
          (freeTriggChannels entry.triggRoutingList s.mgr.triggChannelList).1 } }
  | decremented {decrements : Nat} (owed : s.decrements = decrements + 1) :
      Taken s .decrement { s with decrements, mgr := decrementClSessions s.mgr }

variable {s s' : State} {event : Event}

theorem activateInterval_eq (subId interval : Int) (mgr : Manager) :
    activateInterval subId interval mgr = { mgr with
      tickerIndexList :=
        if 0 < interval then Table.claim 0 subId mgr.tickerIndexList
        else mgr.tickerIndexList } := by
  rw [activateInterval, Table.claim, findTicker]
  by_cases positive : 0 < interval
  · rw [if_neg (by omega), if_pos positive]
    cases mgr.tickerIndexList.findIdx? (· = 0) <;> rfl
  · rw [if_pos (by omega), if_neg positive]

variable {env : Env}

theorem activate_taken {request : Map Value} {sub : SubscriptionState}
    (resting : s.doing = .select) (read : added s (.subscribe env request) = some sub) :
    Taken s (.subscribe env request) (activate env sub s) := by
  have taken := @Taken.subscribed s env request sub
  simp only [begins] at taken
  simp only [activate]
  cases active : activation sub.filterList with
  | none =>
    simp only [active] at taken
    exact taken _ _ resting read (.inl (by rw [resting]; rfl))
  | some filter =>
    simp only [active, any_some, decide_eq_true_eq] at taken
    by_cases curvelog : filter.type = "curvelog".toList
    · simp only [curvelog, not_true_eq_false, false_and, if_false] at taken
      simp only [if_pos curvelog]
      exact taken _ _ resting read (.inr ⟨_, _, rfl⟩)
    · simp only [curvelog, not_false_eq_true, true_and] at taken
      simp only [if_neg curvelog, activateInterval_eq]
      exact taken _ _ resting read (.inl (by rw [resting]; rfl))

theorem deactivate_cases {subId : Str} (asked : deactivated s event = some subId) :
    (deactivateSubscription subId s.mgr = none ∧ removed s event = none) ∨
      ∃ index sub, s.mgr.subscriptionList[index]? = some sub ∧ removed s event = some sub ∧
        sub.subscriptionId = atoiClamped subId ∧
        deactivateSubscription subId s.mgr = some { stopSubscription sub s.mgr with
          subscriptionList := removeFromsubscriptionList s.mgr.subscriptionList index } := by
  have gone : removed s event = subscriptionOf (atoiClamped subId) s.mgr := by
    rw [removed, asked, bind_some]
  rw [gone, subscriptionOf, deactivateSubscription]
  cases first : getSubcriptionStateIndex (atoiClamped subId) s.mgr.subscriptionList with
  | none => exact .inl ⟨rfl, rfl⟩
  | some index =>
    obtain ⟨inside, same, -⟩ := List.findIdx?_eq_some_iff_getElem.mp first
    have here := List.getElem?_eq_getElem inside
    exact .inr ⟨index, _, here, here, of_decide_eq_true same, by simp only [here]; rfl⟩

theorem deactivate_taken {subId : Str} (asked : deactivated s event = some subId)
    (unadded : added s event = none) (idle : s.doing.isIdle = true) (loop : event.isLoop = true) :
    Taken s event (deactivate subId s) := by
  rw [deactivate]
  obtain ⟨result, kept⟩ | ⟨index, sub, here, gone, same, result⟩ := deactivate_cases asked
  · rw [result]
    exact .passed s.doing s.messages idle idle loop unadded kept
  · rw [result, ← same]
    exact .ended index s.doing idle idle loop unadded gone here

theorem notification_taken (resting : s.doing = .select)
    (taken : s.select (.notification env) = some s') : Taken s (.notification env) s' := by
  simp only [State.select] at taken
  split at taken
  · cases taken
  · next clPack mgr received =>
    obtain ⟨mgr', handled, rfl⟩ := map_eq_some_iff.mp taken
    rw [handleCurveLogNotification] at handled
    cases first : getSubcriptionStateIndex clPack.subscriptionId mgr.subscriptionList with
    | none =>
      simp only [first] at handled
      cases handled
      exact .unknown resting received (by rw [subscriptionOf, first, bind_none])
    | some index =>
      obtain ⟨inside, -⟩ := List.findIdx?_eq_some_iff_getElem.mp first
      have here := List.getElem?_eq_getElem inside
      have counted := @Taken.counted s env clPack mgr _ index resting received
        (by rw [subscriptionOf, first, bind_some, here]) here
      simp only [first, List.getElem?_modify_eq, here, map_eq_map, map_some]
        at handled
      split_ifs at handled with last
      · cases handled
        exact counted true (decide_eq_true last).symm
      · cases handled
        exact counted false (decide_eq_false last).symm

theorem select_taken (resting : s.doing = .select) (taken : s.select event = some s') :
    Taken s event s' := by
  have idle : s.doing.isIdle = true := by rw [resting]; rfl
  have ignored : event.isLoop = true → added s event = none → removed s event = none →
      Taken s event s := .passed s.doing s.messages idle idle
  cases event with
  | subscribe env request =>
    have kept : removed s (.subscribe env request) = none := by
      simp only [removed, deactivated, resting, bind_none]
    have read : added s (.subscribe env request) =
        (readSubscription env request s.mgr.subscriptionId).toOption := by
      simp only [added, resting]
    simp only [State.select] at taken
    split at taken
    · next refusal =>
      rw [refusal] at read
      cases taken
      exact ignored rfl read kept
    · next accepted =>
      rw [accepted] at read
      cases taken
      exact activate_taken resting read
  | unsubscribe request =>
    have unadded : added s (.unsubscribe request) = none := by simp only [added, resting]
    have asked : deactivated s (.unsubscribe request) =
        getStr request "subscriptionId" := by simp only [deactivated, resting]
    simp only [State.select] at taken
    split at taken
    · next missed =>
      cases taken
      exact ignored rfl unadded (by rw [removed, asked, missed, bind_none])
    · next subscriptionId given =>
      rw [deactivate] at taken
      obtain ⟨result, kept⟩ | ⟨index, sub, here, gone, same, result⟩ :=
        deactivate_cases (asked.trans given)
      · rw [result] at taken
        cases taken
        exact ignored rfl unadded kept
      · rw [result, ← same] at taken
        cases taken
        exact .ended index _ idle rfl rfl unadded gone here
  | kill request =>
    have unadded : added s (.kill request) = none := by simp only [added, resting]
    have kept : removed s (.kill request) = none := by
      simp only [removed, deactivated, resting, bind_none]
    simp only [State.select] at taken
    split at taken
    · cases taken
      exact ignored rfl unadded kept
    · cases taken
      exact .passed _ s.messages idle rfl rfl unadded kept
  | cancel request =>
    have unadded : added s (.cancel request) = none := by simp only [added, resting]
    have asked : deactivated s (.cancel request) =
        (gatedClient request s.mgr).bind fun routerId => firstOf routerId s.mgr := by
      simp only [deactivated, resting]
    simp only [State.select] at taken
    split at taken
    · next missed =>
      cases taken
      exact ignored rfl unadded (by rw [removed, asked, missed, bind_none])
    · next subscriptionId given =>
      cases taken
      exact deactivate_taken (asked.trans given) unadded idle rfl
  | notification => exact notification_taken resting taken
  | _ => cases taken

theorem proceed_taken (taken : s.proceed env = some s') : Taken s (.proceed env) s' := by
  have unadded : added s (.proceed env) = none := by
    rw [added]
    nofun
  rw [State.proceed] at taken
  split at taken
  · next id groups elems doing =>
    cases taken
    rw [start.eq_def]
    split
    · exact .planned doing
    · exact .skipped _ doing
    · simp only [incrementClSessionsIfAvailable]
      split_ifs
      · exact .skipped _ doing
      · exact .started _ _ doing
  · next id group groups elems doing =>
    cases taken
    rw [allocate]
    split
    · next full => exact .refused doing (by rw [full]; rfl)
    · next index mgr granted =>
      obtain ⟨index', first, same⟩ := map_eq_some_iff.mp granted
      cases same
      obtain ⟨inside, holds, -⟩ := List.findIdx?_eq_some_iff_getElem.mp first
      refine .allocated doing (by rw [granted]; rfl) ?_
      rw [List.getElem?_eq_getElem inside, of_decide_eq_true holds]
  · next doing =>
    rw [launch] at taken
    split_ifs at taken with room
    cases taken
    exact .launched doing room
  · next message doing =>
    have kept : removed s (.proceed env) = none := by
      simp only [removed, deactivated, doing, bind_none]
    cases taken
    exact .passed _ _ (by rw [doing]; rfl) rfl rfl unadded kept
  · next routerId doing =>
    have asked : deactivated s (.proceed env) = firstOf routerId s.mgr := by
      simp only [deactivated, doing]
    have idle : s.doing.isIdle = true := by rw [doing]; rfl
    split at taken
    · next missed =>
      cases taken
      exact .passed _ s.messages idle rfl rfl unadded
        (by rw [removed, asked, missed, bind_none])
    · next subscriptionId found =>
      cases taken
      exact deactivate_taken (asked.trans found) unadded idle rfl
  · cases taken
  · cases taken

theorem CaptureThread.live_of_stage {thread : CaptureThread} {stage : Stage}
    (here : thread.stage = stage) (running : stage ≠ .ended) : thread.live = true :=
  decide_eq_true (here ▸ running)

theorem serverIdle_iff : s.serverIdle = true ↔ s.releasing = [] ∧ s.decrements = 0 := by
  rw [State.serverIdle, Bool.and_eq_true, List.isEmpty_iff, decide_eq_true_eq]

theorem taken_of_step (taken : s.step event = some s') : Taken s event s' := by
  have at_select : (match s.doing with
      | .select => if event.dispatched then s.select event else none
      | _ => none) = some s' → Taken s event s' := by
    intro dispatched
    split at dispatched
    · next resting =>
      split_ifs at dispatched
      exact select_taken resting dispatched
    · cases dispatched
  cases event with
  | proceed => exact proceed_taken taken
  | route =>
    simp only [State.step] at taken
    split at taken
    · next doing =>
      split_ifs at taken
      cases taken
      exact .routed doing
    · cases taken
  | round =>
    simp only [State.step] at taken
    split at taken
    · cases taken
    · next found =>
      split_ifs at taken with waiting
      cases taken
      exact .round _ found (CaptureThread.live_of_stage waiting (by simp))
  | advance =>
    simp only [State.step, State.advance] at taken
    split at taken
    · cases taken
    · next found =>
      split at taken
      · next sending =>
        cases taken
        exact .finished found (CaptureThread.live_of_stage sending (by simp)) sending
      · next sending =>
        split_ifs at taken with room
        cases taken
        exact .sent found (CaptureThread.live_of_stage sending (by simp)) sending room
      · cases taken
  | serve =>
    simp only [State.step] at taken
    split at taken
    · cases taken
    · next first =>
      split_ifs at taken with idle
      cases taken
      exact .served first (serverIdle_iff.mp idle)
  | release =>
    simp only [State.step] at taken
    split at taken
    · next first paid =>
      cases taken
      exact .released first paid
    · cases taken
  | decrement =>
    simp only [State.step] at taken
    split at taken
    · cases taken
    · next owed =>
      cases taken
      exact .decremented owed
  | _ => exact at_select taken

end Vissr.ServiceMgr.Sessions
