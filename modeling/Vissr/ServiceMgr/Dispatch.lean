import Vissr.ServiceMgr.CurveLog

/-! The loop of the service manager (`ServiceMgrInit`) and its handlers. -/

namespace Vissr.ServiceMgr

open Json Act

variable (env : Env) (requestMap : Map Value)

/-- A missing field becomes `nil`. -/
def fieldOf (k : Str) : Value := (requestMap.lookup k).getD .null

def buildServiceResponseMap : Map Value :=
  let responseMap : Map Value :=
    [("RouterId", fieldOf requestMap "RouterId"), ("action", fieldOf requestMap "action"),
      ("requestId", fieldOf requestMap "requestId"), ("ts", .str env.rfcTime)]
  if isNil requestMap "handle" then responseMap
  else set "authorization" (fieldOf requestMap "handle") responseMap

def respond (responseMap : Map Value) (mgr : Manager) : Loop Manager := do
  emit (.dataChan responseMap)
  return mgr

/-- An error is written over the one before it, and sent. -/
def refuse (refusal : Refusal) (mgr : Manager) : Loop Manager :=
  let errorResponseMap := setErrorResponse env.rfcTime requestMap mgr.errorResponseMap
    refusal.errorIndex refusal.description
  respond errorResponseMap { mgr with errorResponseMap }

def hasFilter : Bool := !isNil requestMap "filter" && getStr requestMap "filter" ≠ some []

def filtersOf : List FilterObject := unpackFilter env.order (fieldOf requestMap "filter")

/-- The timestamp of a write, empty for a value that cannot be written. -/
def writeValue (path : Str) (value : Value) : Loop Str := do
  let written :=
    match value with
    | .str s => env.setVehicleData path s
    | .obj m => env.setVehicleData path (Value.obj m).marshal
    | _ => ([], [])
  emitAll (written.2.map Effect.toFeeder)
  return written.1

variable (mgr : Manager)

def handleServiceSet : Loop Manager :=
  match getStr requestMap "path" with
  | none => refuse env requestMap ⟨1, "missing/invalid path"⟩ mgr
  | some path => do
      let ts ← writeValue env path (fieldOf requestMap "value")
      if ts = [] then refuse env requestMap ⟨7, []⟩ mgr
      else respond (set "ts" (.str ts) (buildServiceResponseMap env requestMap)) mgr

/-- Up to the first that is refused; otherwise the last timestamp. -/
def writeElements : List Value → Str → Loop (Except Refusal Str)
  | [], ts => return .ok ts
  | .obj elem :: rest, _ =>
    match getStr elem "path" with
    | none => return .error ⟨1, []⟩
    | some path => do
        let ts ← writeValue env path (fieldOf elem "value")
        if ts = [] then return .error ⟨7, []⟩ else writeElements rest ts
  | _ :: _, _ => return .error ⟨1, []⟩

def handleServiceMultiSet : Loop Manager :=
  match fieldOf requestMap "data" with
  | .arr (element :: rest) => do
      match ← writeElements env (element :: rest) [] with
      | .error refusal => refuse env requestMap refusal mgr
      | .ok ts => respond (set "ts" (.str ts) (buildServiceResponseMap env requestMap)) mgr
  | _ => refuse env requestMap ⟨1, []⟩ mgr

def handleServiceGet : Loop Manager :=
  match getStr requestMap "path" with
  | none => refuse env requestMap ⟨1, "missing/invalid path"⟩ mgr
  | some path =>
    match unpackPaths path with
    | none => refuse env requestMap ⟨1, []⟩ mgr
    | some pathArray =>
      if hasFilter requestMap ∧ filtersOf env requestMap = [] then
        refuse env requestMap ⟨0, []⟩ mgr
      else do
        let dataPack ← await (getDataPackMap env pathArray)
        respond (set "data" dataPack (buildServiceResponseMap env requestMap)) mgr

def gatingIdOf : Except Refusal Str :=
  if isNil requestMap "gatingId" then .ok []
  else
    match getStr requestMap "gatingId" with
    | some gatingId => .ok gatingId
    | none => .error ⟨1, "invalid gatingId"⟩

def readSubscription (subscriptionId : Int) :
    Except Refusal SubscriptionState :=
  match getStr requestMap "RouterId", getStr requestMap "path" with
  | some routerId, some pathStr =>
    match unpackPaths pathStr with
    | none | some [] => .error ⟨0, []⟩
    | some (first :: rest) =>
      if hasFilter requestMap then
        if filtersOf env requestMap = [] then .error ⟨1, []⟩
        else
          (gatingIdOf requestMap).map fun gatingId =>
            { subscriptionId, routerId, gatingId
              path := first :: rest
              filterList := filtersOf env requestMap
              latestDataPoint := env.getVehicleData first }
      else .error ⟨0, []⟩
  | _, _ => .error ⟨0, []⟩

/-- The first filter that starts a ticker or a curve log does so. -/
def activateIfIntervalOrCL (subscriptionId : Int) (paths : List Str) :
    List FilterObject → Manager → Loop Manager
  | [], mgr => return mgr
  | filter :: rest, mgr =>
    if filter.type = "timebased" then
      return activateInterval subscriptionId (getIntervalPeriod filter.parameter) mgr
    else if filter.type = "curvelog" then curveLoggingDispatcher env subscriptionId paths mgr
    else activateIfIntervalOrCL subscriptionId paths rest mgr

variable (subscription : SubscriptionState)

def notifyFeeder : Loop Unit :=
  match getFeederNotifyType subscription.filterList with
  | none => return ()
  | some variant =>
    emit (.toFeeder
      (createFeederNotifyMessage variant subscription.path subscription.subscriptionId))

def handleServiceSubscribe : Loop Manager :=
  match readSubscription env requestMap mgr.subscriptionId with
  | .error refusal => refuse env requestMap refusal mgr
  | .ok subscription => do
      let mgr ← activateIfIntervalOrCL env subscription.subscriptionId subscription.path
        subscription.filterList
        { mgr with subscriptionList := mgr.subscriptionList ++ [subscription] }
      notifyFeeder subscription
      respond (set "subscriptionId" (.str (itoa subscription.subscriptionId))
        (buildServiceResponseMap env requestMap))
        { mgr with subscriptionId := wrap64 (mgr.subscriptionId + 1) }

/-- The response comes before the message to the feeder. -/
def handleServiceUnsubscribe : Loop Manager :=
  match getStr requestMap "subscriptionId" with
  | none => refuse env requestMap ⟨1, []⟩ mgr
  | some subscriptId =>
    match deactivateSubscription subscriptId mgr with
    | some mgr => do
        let mgr ← respond (buildServiceResponseMap env requestMap) mgr
        emit (.toFeeder (Value.obj (delete "origin" requestMap)).marshal)
        return mgr
    | none => refuse env (delete "subscriptionId" requestMap) ⟨1, []⟩ mgr

def killSubscriptions (routerId : Str) : Nat → Manager → Manager
  | 0, mgr => mgr
  | rounds + 1, mgr =>
    match scanAndRemoveListItem routerId mgr with
    | (true, mgr) => killSubscriptions routerId rounds mgr
    | (false, mgr) => mgr

def handleInternalKillSubscriptions : Manager :=
  match getStr requestMap "RouterId" with
  | none => mgr
  | some routerId => killSubscriptions routerId mgr.subscriptionList.length mgr

def cancelEvent (routerId subscriptionId : Str) (requestMap : Map Value) : Map Value :=
  set "subscriptionId" (.str subscriptionId) (set "requestId" .null
    (set "action" (.str "subscription") (set "RouterId" (.str routerId) requestMap)))

def handleInternalCancelSubscription : Loop Manager :=
  match getStr requestMap "gatingId" with
  | none => return mgr
  | some gatingId =>
    let (routerId, subscriptionId) := getSubscriptionData mgr.subscriptionList gatingId
    if routerId = [] then return mgr
    else do
      let mgr ← refuse env (cancelEvent routerId subscriptionId requestMap)
        ⟨2, "Token expired or consent cancelled."⟩ mgr
      return (scanAndRemoveListItem routerId mgr).2

inductive Action where
  | invoke
  | set
  | get
  | subscribe
  | unsubscribe
  | killSubscriptions
  | cancelSubscription
  | unknown
  deriving DecidableEq

def actionNames : Map Action :=
  [("invoke", .invoke), ("set", .set), ("get", .get), ("subscribe", .subscribe),
    ("unsubscribe", .unsubscribe), ("internal-killsubscriptions", .killSubscriptions),
    ("internal-cancelsubscription", .cancelSubscription)]

def actionOf : Action :=
  ((getStr requestMap "action").bind fun action => actionNames.lookup action).getD .unknown

def handleRequest : Loop Manager :=
  match actionOf requestMap with
  | .invoke => return mgr
  | .set =>
    if (requestMap.lookup "data".toList).isSome then handleServiceMultiSet env requestMap mgr
    else handleServiceSet env requestMap mgr
  | .get => handleServiceGet env requestMap mgr
  | .subscribe => handleServiceSubscribe env requestMap mgr
  | .unsubscribe => handleServiceUnsubscribe env requestMap mgr
  | .killSubscriptions => return handleInternalKillSubscriptions requestMap mgr
  | .cancelSubscription => handleInternalCancelSubscription env requestMap mgr
  | .unknown => refuse env requestMap ⟨1, "Unknown action"⟩ mgr

def subscriptionMap (data : Value) : Map Value :=
  [("action", .str "subscription"), ("ts", .str env.rfcTime),
    ("subscriptionId", .str (itoa subscription.subscriptionId)),
    ("RouterId", .str subscription.routerId), ("data", data)]

/-- It is dropped when nobody waits for it. -/
def intervalEvent (subscriptionId : Int) (mgr : Manager) : Option (Option (Map Value)) :=
  match mgr.subscriptionList.find? fun subscription =>
      subscription.subscriptionId = subscriptionId with
  | none => some none
  | some subscription =>
    (getDataPackMap env subscription.path).map fun data =>
      some (subscriptionMap env subscription data)

def checkSubscription (triggeredPath : Str) (subscription : SubscriptionState) :
    SubscriptionState × Bool :=
  match subscription.path with
  | [] => (subscription, false)
  | first :: _ =>
    if triggeredPath = [] ∨ triggeredPath = first then
      let (doTrigger, triggerDataPoint) := checkRangeChangeFilter env
        subscription.latestDataPoint first subscription.filterList
      ({ subscription with latestDataPoint := triggerDataPoint }, doTrigger)
    else (subscription, false)

/-- The loop waits at the event of a subscription until it is taken. -/
def issueMessage (doTrigger : Bool) : Loop Unit :=
  if doTrigger then do
    let data ← await (getDataPackMap env subscription.path)
    emit (.backendChan (subscriptionMap env subscription data))
  else return ()

def checkRCFilterAndIssueMessages (triggeredPath : Str) :
    List SubscriptionState → Loop (List SubscriptionState)
  | [] => return []
  | subscription :: rest => do
      let checked := checkSubscription env triggeredPath subscription
      issueMessage env checked.1 checked.2
      let others ← checkRCFilterAndIssueMessages triggeredPath rest
      return checked.1 :: others

def decodeFeederMessage (feederMessage : Str) (feederNotification : Bool) : Str × Bool :=
  match unmarshalMap feederMessage with
  | none => ([], feederNotification)
  | some messageMap =>
    match getStr messageMap "action" with
    | none => ([], feederNotification)
    | some action =>
      if action = "subscribe" then
        ([], feederNotification || getStr messageMap "status" = some "ok".toList)
      else if action = "subscription" then
        ((getStr messageMap "path").getD [], feederNotification)
      else ([], feederNotification)

def checkSubscriptions (triggeredPath : Str) (mgr : Manager) : Loop Manager := do
  let subscriptionList ← checkRCFilterAndIssueMessages env triggeredPath mgr.subscriptionList
  return { mgr with subscriptionList }

/-- Only as long as no feeder sends notifications. -/
def handleRCTick : Loop Manager :=
  if mgr.feederNotification then return mgr else checkSubscriptions env [] mgr

def handleFeederNotificationMessage (feederMessage : Str) (mgr : Manager) : Loop Manager :=
  let (triggeredPath, feederNotification) :=
    decodeFeederMessage feederMessage mgr.feederNotification
  checkSubscriptions env triggeredPath { mgr with feederNotification }

/-- The last point of a closed curve log removes the subscription. -/
def handleCurveLogNotification (clPack : CLPack) (mgr : Manager) : Loop Manager :=
  match getSubcriptionStateIndex clPack.subscriptionId mgr.subscriptionList with
  | none => return { mgr with closeClSubId := -1 }
  | some index =>
    let counted := mgr.subscriptionList.modify index fun subscription =>
      { subscription with subscriptionThreads := subscription.subscriptionThreads - 1 }
    match counted[index]? with
    | none => halt
    | some subscription =>
      if clPack.subscriptionId = mgr.closeClSubId ∧ subscription.subscriptionThreads = 0 then
        return { mgr with
          closeClSubId := -1
          subscriptionList := removeFromsubscriptionList counted index }
      else do
        emit (.backendChan
          (subscriptionMap env subscription (string2Value clPack.dataPack)))
        return { mgr with subscriptionList := counted }

end Vissr.ServiceMgr
