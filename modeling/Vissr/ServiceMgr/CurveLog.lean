import Vissr.ServiceMgr.Subscriptions

/-! How the sessions of a curve log are started (`server/vissv2server/serviceMgr/curvelog.go`). -/

namespace Vissr.ServiceMgr

open Json List

structure TriggRoutingElem where
  index : Nat
  path : List Str

structure TriggRoutingData where
  subscriptionId : Str
  triggRoutingList : List TriggRoutingElem

/-- The channel of the curve logs is not here: it is part of the state. -/
inductive Effect where
  | dataChan (message : Map Value)
  | backendChan (message : Map Value)
  | toFeeder (message : Str)
  | clRouterChan (routingData : TriggRoutingData)

abbrev Loop := Act Effect

structure PathDimElem where
  dim : Nat := 1
  id : Int := -1
  populated : Bool := false
  deriving DecidableEq

variable (dim2List : List (Str × Str)) (dim3List : List (Str × Str × Str))

def is2dim (path : Str) (index : Nat) : Bool := dim2List.any fun elem =>
    match index with
    | 1 => elem.1 = path
    | 2 => elem.2 = path
    | _ => false

def is3dim (path : Str) (index : Nat) : Bool := dim3List.any fun elem =>
    match index with
    | 1 => elem.1 = path
    | 2 => elem.2.1 = path
    | 3 => elem.2.2 = path
    | _ => false

structure Analysis where
  pathDimList : List PathDimElem
  dim2Id : Int := 0
  dim3Id : Int := 0

/-- The paths of a group get its dimension and number. -/
def Analysis.mark (analysis : Analysis) (dim : Nat) (indices : List Nat) : Analysis :=
  let id := if dim = 2 then analysis.dim2Id else analysis.dim3Id
  { pathDimList := indices.foldl
      (fun elems i => elems.modify i fun elem => { elem with dim, id }) analysis.pathDimList
    dim2Id := analysis.dim2Id + if dim = 2 then 1 else 0
    dim3Id := analysis.dim3Id + if dim = 2 then 0 else 1 }

def laterIndices (paths : List Str) (i : Nat) (role : Str → Bool) : List Nat :=
  (range paths.length).filter fun j => decide (i < j) && (paths[j]?).any role

/-- The path after the second one decides whether it is a triple or a pair. -/
def analyzePath (paths : List Str) (analysis : Analysis) (i : Nat) : Analysis :=
  if (paths[i]?).any fun path => is2dim dim2List path 1 then
    match laterIndices paths i fun path => is2dim dim2List path 2 with
    | j :: _ => analysis.mark 2 [i, j]
    | [] => analysis
  else if (paths[i]?).any fun path => is3dim dim3List path 1 then
    match (laterIndices paths i fun path => is3dim dim3List path 2).filter
        fun j => decide (j + 1 < paths.length) with
    | j :: _ =>
      if (paths[j + 1]?).any fun path => is3dim dim3List path 3 then
        analysis.mark 3 [i, j, j + 1]
      else analysis.mark 2 [i, j]
    | [] => analysis
  else analysis

variable (signalDimensions : Option (List (Str × Str) × List (Str × Str × Str)))

def analyzeSignalDimensions
    (paths : List Str) : List PathDimElem :=
  let start : Analysis := { pathDimList := paths.map fun _ => {} }
  match signalDimensions with
  | none => start.pathDimList
  | some (dim2List, dim3List) =>
    ((range paths.length).foldl (analyzePath dim2List dim3List paths) start).pathDimList

structure DimLists where
  dim1List : List (List Str) := []
  dim2List : List (List Str) := []
  dim3List : List (List Str) := []

/-- The later paths of the same group. -/
def samegroup (pathDimList : List PathDimElem) (i : Nat) (elem : PathDimElem) : List Nat :=
  (range pathDimList.length).filter fun j =>
    decide (i < j) && (pathDimList[j]?).any fun other => other.dim = elem.dim && other.id = elem.id

def populated (indices : List Nat) (pathDimList : List PathDimElem) : List PathDimElem :=
  indices.foldl (fun elems j => elems.modify j fun elem => { elem with populated := true })
    pathDimList

def populateRound (paths : List Str) (state : List PathDimElem × DimLists) (i : Nat) :
    List PathDimElem × DimLists :=
  match state.1[i]?, paths[i]? with
  | some elem, some path =>
    let others := samegroup state.1 i elem
    let pathAt := fun j => (paths[j]?).getD []
    if elem.dim = 1 then
      (state.1, { state.2 with dim1List := state.2.dim1List ++ [[path]] })
    else if elem.populated then state
    else if elem.dim = 2 then
      (populated others state.1,
        { state.2 with dim2List := state.2.dim2List ++ others.map fun j => [path, pathAt j] })
    else
      let pairs := others.flatMap fun j =>
        (others.filter fun k => decide (j < k)).map fun k => (j, k)
      (populated (pairs.flatMap fun pair => [pair.1, pair.2]) state.1, { state.2 with
          dim3List := state.2.dim3List ++
            pairs.map fun pair => [path, pathAt pair.1, pathAt pair.2] })
  | _, _ => state

def populateDimLists
    (paths : List Str) : DimLists :=
  ((range paths.length).foldl (populateRound paths)
    (analyzeSignalDimensions signalDimensions paths, {})).2

variable (env : Env)

def allocateSession (mgr : Manager) : Option (Nat × Manager) :=
  if maxClSessions ≤ mgr.numOfClSessions then none
  else
    (mgr.triggChannelList.findIdx? (· = false)).map fun index =>
      (index, { mgr with
        numOfClSessions := mgr.numOfClSessions + 1
        triggChannelList := mgr.triggChannelList.set index true })

def sendTo (pack : CLPack) (mgr : Manager) (room : mgr.clChannel.packs.length < clCapacity) :
    Manager :=
  { mgr with
    clChannel := ⟨mgr.clChannel.packs ++ [pack], by rw [length_append]; exact room⟩ }

/-- The only receiver of the channel is the loop that sends here. -/
def sendClPack (pack : CLPack) (mgr : Manager) : Loop Manager :=
  if room : mgr.clChannel.packs.length < clCapacity then return sendTo pack mgr room
  else Act.halt

def singleDp (path : Str) : Str :=
  "\x7b\"path\":\"" ++ path ++ "\",\"dp\":" ++ env.getVehicleData path ++ ['\x7d']

variable (subscriptionId : Int)

def returnSingleDp (paths : List Str) : CLPack :=
  { subscriptionId
    dataPack :=
      match paths with
      | [path] => singleDp env path
      | paths => '[' :: joinComma (paths.map (singleDp env)) ++ [']'] }

def startSessions (subscriptionId : Int) :
    List (List Str) → Manager → List TriggRoutingElem → Loop (Manager × List TriggRoutingElem)
  | [], mgr, routing => return (mgr, routing)
  | group :: rest, mgr, routing =>
    match allocateSession mgr with
    | none => return (mgr, routing)
    | some (index, mgr) => do
        let mgr ← sendClPack (returnSingleDp env subscriptionId group) mgr
        startSessions subscriptionId rest mgr (routing ++ [⟨index, group⟩])

def setSubscriptionListThreads (threads : Nat) (mgr : Manager) : Manager :=
  match getSubcriptionStateIndex subscriptionId mgr.subscriptionList with
  | some index =>
    { mgr with
      subscriptionList := mgr.subscriptionList.modify index fun subscription =>
        { subscription with subscriptionThreads := threads } }
  | none => mgr

/-- How the points are reduced is left to the sessions. -/
def curveLoggingDispatcher (paths : List Str) (mgr : Manager) :
    Loop Manager := do
  let dims := populateDimLists env.signalDimensions paths
  let (mgr, routing) ← startSessions env subscriptionId dims.dim1List mgr []
  let (mgr, routing) ← startSessions env subscriptionId dims.dim2List mgr routing
  let (mgr, routing) ← startSessions env subscriptionId dims.dim3List mgr routing
  Act.emit (.clRouterChan ⟨itoa subscriptionId, routing⟩)
  return setSubscriptionListThreads subscriptionId routing.length mgr

end Vissr.ServiceMgr
