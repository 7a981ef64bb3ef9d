import Vissr.Common
import Vissr.Json.Struct
import Vissr.Effects

/-! Subscriptions, tickers and filters (`server/vissv2server/serviceMgr/serviceMgr.go`). -/

namespace Vissr.ServiceMgr

open Json

/-- The `float32` numbers of the filters, as `strconv.ParseFloat` gives them. -/
structure Floats where
  F : Type
  parse : Str → Option F
  sub : F → F → F
  eq : F → F → Bool
  lt : F → F → Bool

/-- What the service manager uses besides its own state. -/
structure Env where
  /-- the state storage: a data point as JSON text -/
  getVehicleData : Str → Str
  /-- the timestamp, empty when it failed, and what the feeder is told -/
  setVehicleData : Str → Str → Str × List Str
  /-- the pairs and triples of signals of the file `signaldimension.json` -/
  signalDimensions : Option (List (Str × Str) × List (Str × Str × Str))
  floats : Floats
  order : MapOrder
  rfcTime : Str

structure SubscriptionState where
  subscriptionId : Int
  subscriptionThreads : Int := 0
  routerId : Str
  path : List Str
  filterList : List FilterObject
  latestDataPoint : Str := []
  gatingId : Str := []
  deriving DecidableEq

structure CLPack where
  dataPack : Str
  subscriptionId : Int
  deriving DecidableEq

/-- The total number of tickers, and of sessions of curve logs. -/
def maxTickers : Nat := 255
def maxClSessions : Nat := 25

/-- How many packs the channel of the curve logs can hold. -/
def clCapacity : Nat := 5

structure CLChannel where
  packs : List CLPack := []
  bounded : packs.length ≤ clCapacity := by exact Nat.zero_le _

/-- The state the loop of the service manager works on. -/
structure Manager where
  subscriptionList : List SubscriptionState := []
  subscriptionId : Int := 1
  tickerIndexList : List Int := List.replicate maxTickers 0
  closeClSubId : Int := -1
  numOfClSessions : Nat := 0
  triggChannelList : List Bool := List.replicate maxClSessions false
  clChannel : CLChannel := {}
  feederNotification : Bool := false
  errorResponseMap : Map Value := []

def findTicker (mgr : Manager) (subscriptionId : Int) : Option Nat :=
  mgr.tickerIndexList.findIdx? (· = subscriptionId)

def activateInterval (subscriptionId interval : Int) (mgr : Manager) : Manager :=
  if interval ≤ 0 then mgr
  else
    match findTicker mgr 0 with
    | some index => { mgr with tickerIndexList := mgr.tickerIndexList.set index subscriptionId }
    | none => mgr

def deactivateInterval (subscriptionId : Int) (mgr : Manager) : Manager :=
  match findTicker mgr subscriptionId with
  | some index => { mgr with tickerIndexList := mgr.tickerIndexList.set index 0 }
  | none => mgr

def getSubcriptionStateIndex (subscriptionId : Int)
    (subscriptionList : List SubscriptionState) : Option Nat :=
  subscriptionList.findIdx? fun subscription => subscription.subscriptionId = subscriptionId

variable (subscriptionList : List SubscriptionState)

/-- The last element takes the place of the one that is removed. -/
def removeFromsubscriptionList (index : Nat) :
    List SubscriptionState :=
  match subscriptionList.getLast? with
  | some last => (subscriptionList.set index last).dropLast
  | none => subscriptionList

variable (filterList : List FilterObject)

def getOpType (opType : Str) : Bool := filterList.any fun filter => filter.type = opType

def stopSubscription (subscription : SubscriptionState) (mgr : Manager) : Manager :=
  if getOpType subscription.filterList "timebased" then
    deactivateInterval subscription.subscriptionId mgr
  else if getOpType subscription.filterList "curvelog" then
    { mgr with closeClSubId := subscription.subscriptionId }
  else mgr

/-- Nothing for a subscription that is not in the list. -/
def deactivateSubscription (subscriptionId : Str) (mgr : Manager) : Option Manager :=
  match getSubcriptionStateIndex (atoiClamped subscriptionId) mgr.subscriptionList with
  | none => none
  | some index =>
    (mgr.subscriptionList[index]?).map fun subscription =>
      { stopSubscription subscription mgr with
        subscriptionList := removeFromsubscriptionList mgr.subscriptionList index }

def scanAndRemoveListItem (routerId : Str) (mgr : Manager) : Bool × Manager :=
  match mgr.subscriptionList.find? fun subscription => subscription.routerId = routerId with
  | none => (false, mgr)
  | some subscription =>
    (true, (deactivateSubscription (itoa subscription.subscriptionId) mgr).getD mgr)

def getSubscriptionData (gatingId : Str) : Str × Str :=
  match subscriptionList.find? fun subscription => subscription.gatingId = gatingId with
  | some subscription => (subscription.routerId, itoa subscription.subscriptionId)
  | none => ([], [])

variable (env : Env)

def decodeField {σ : Type} (name : Str) (get : σ → Str) (put : Str → σ → σ) : Json.Field σ :=
  ⟨name, fun w value => (decodeStr w (get value)).map fun s => put s value⟩

def decodePair (first second : Str) (w : Raw) : Option (Str × Str) :=
  let fields : List (Json.Field (Str × Str)) :=
    [decodeField first Prod.fst fun s pair => (s, pair.2),
      decodeField second Prod.snd fun s pair => (pair.1, s)]
  decodeStruct fields w ([], [])

def unmarshalPair (first second text : Str) : Option (Str × Str) :=
  (parseAll text).bind (decodePair first second)

def unpackDataPoint (dp : Str) : Str × Str := (unmarshalPair "value" "ts" dp).getD ([], [])

def getDPValue (dp : Str) : Str := (unpackDataPoint dp).1

/-- The comparison of numbers, current minus difference against latest. -/
def compareNumbers (logicOp : Str) (latVal curVal diffVal : env.floats.F) : Bool :=
  let changed := env.floats.sub curVal diffVal
  if logicOp = "eq" then env.floats.eq changed latVal
  else if logicOp = "ne" then !env.floats.eq changed latVal
  else if logicOp = "gt" then env.floats.lt latVal changed
  else if logicOp = "gte" then env.floats.lt latVal changed || env.floats.eq latVal changed
  else if logicOp = "lt" then env.floats.lt changed latVal
  else if logicOp = "lte" then env.floats.lt changed latVal || env.floats.eq changed latVal
  else false

variable (logicOp latestValue currentValue diff : Str)

def compareBooleans : Bool :=
  if diff ≠ "0" then false
  else if logicOp = "eq" then currentValue = latestValue
  else if logicOp = "ne" then currentValue ≠ latestValue
  else if logicOp = "gt" then latestValue = "false" && currentValue ≠ latestValue
  else if logicOp = "lt" then latestValue = "true" && currentValue ≠ latestValue
  else false

def compareValues (boolean : Bool) : Bool :=
  if boolean then compareBooleans logicOp latestValue currentValue diff
  else
    match env.floats.parse currentValue, env.floats.parse latestValue, env.floats.parse diff with
    | some curVal, some latVal, some diffVal => compareNumbers env logicOp latVal curVal diffVal
    | _, _, _ => false

def rangeFilters (opValue : Str) : Option (List (Str × Str)) :=
  if contains opValue "[" then
    match parseAll opValue with
    | some (.arr xs) => xs.mapM (decodePair "logic-op" "boundary")
    | some .null => some []
    | _ => none
  else (unmarshalPair "logic-op" "boundary" opValue).map fun filter => [filter]

def evaluateRangeFilter (opValue currentValue : Str) : Bool :=
  match rangeFilters opValue with
  | none => false
  | some filters =>
    filters.all fun filter => compareValues env filter.1 filter.2 currentValue "0" false

def evaluateChangeFilter (opValue latestValue currentValue currentDataPoint : Str) : Bool × Str :=
  match unmarshalPair "logic-op" "diff" opValue with
  | none => (false, [])
  | some (logicOp, diff) =>
    (compareValues env logicOp latestValue currentValue diff
      (isBoolean currentValue || isBoolean latestValue), currentDataPoint)

/-- Only the first range or change filter is looked at. -/
def checkRangeChangeFilter (latestDataPoint path : Str) : List FilterObject → Bool × Str
  | [] => (false, [])
  | filter :: rest =>
    let currentDataPoint := env.getVehicleData path
    if filter.type = "range" then
      (evaluateRangeFilter env filter.parameter (getDPValue currentDataPoint), currentDataPoint)
    else if filter.type = "change" then
      evaluateChangeFilter env filter.parameter (getDPValue latestDataPoint)
        (getDPValue currentDataPoint) currentDataPoint
    else checkRangeChangeFilter latestDataPoint path rest

def isFeederVariant (type : Str) : Bool := type = "curvelog" || type = "change" || type = "range"

def getFeederNotifyType : Option Str :=
  (filterList.find? fun filter => isFeederVariant filter.type).map FilterObject.type

def createFeederNotifyMessage (variant : Str) (pathList : List Str) (subscriptionId : Int) : Str :=
  if pathList = [] then []
  else
    let paths := "[\"".toList ++ pathList.flatMap fun path => path ++ "\", \"".toList
    "\x7b\"action\": \"subscribe\", \"variant\": \"" ++ variant ++ "\", \"path\": " ++
      paths.take (paths.length - 3) ++ "], \"subscriptionId\": \"".toList ++ itoa subscriptionId ++
      "\"\x7d"

/-- The period of a timebased filter, -1 when it has none. -/
def getIntervalPeriod (opValue : Str) : Int :=
  let field : Json.Field Str := decodeField "period" id fun s _ => s
  match (parseAll opValue).bind fun w => decodeStruct [field] w [] with
  | none => -1
  | some period => (atoi period).getD (-1)

/-- A text as a value, `nil` when it is none. -/
def string2Value (msg : Str) : Value :=
  ((mapRequest ("\x7b\"s2m\":" ++ msg ++ ['\x7d'])).1.lookup "s2m".toList).getD .null

def dataPackElement (path : Str) : Value :=
  .obj [("path", .str path), ("dp", string2Value (env.getVehicleData path))]

/-- The data of some paths; without a path there is a panic. -/
def getDataPackMap : List Str → Option Value
  | [] => none
  | [path] => some (dataPackElement env path)
  | paths => some (.arr (paths.map (dataPackElement env)))

/-- No paths are told apart from an empty array of them. -/
def unpackPaths (paths : Str) : Option (List Str) :=
  if paths = [] then none
  else if contains paths "[" then
    match parseAll paths with
    | some (.arr xs) => xs.mapM fun w => decodeStr w []
    | _ => none
  else some [paths]

end Vissr.ServiceMgr
