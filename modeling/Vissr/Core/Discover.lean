import Vissr.Core.Checks
import Vissr.Effects

/-! The answers the core gives itself: metadata in the scope of the client, and errors. -/

namespace Vissr.Core

open Json Token Tree

/-- A map of its own, or the one error map as it is at the send. -/
inductive Answer where
  | own (message : Map Value)
  | error (content : Map Value)

/-- What others can see. Indices that are only passed on are left out. -/
inductive Effect where
  /-- a question to the access token server, and what came back -/
  | verifyToken (token action paths : Str) (validation : Int) (answer : TokenAnswer)
  /-- the same about a client context -/
  | noScope (tokenContext : Str)
  | ftChannel (ftInitData : FileTransferCache)
  | serviceDataChan (requestMap : Map Value)
  | backendChan (answer : Answer)

abbrev Handler := Act Effect

variable (env : Env) (requestMap : Map Value)

def errorResponse (errorIndex : Nat) (description : Str) : Map Value :=
  setErrorResponse env.rfcTime requestMap env.errorResponseMap errorIndex description

def setErrorAndForward (errorIndex : Nat) (description : Str) :
    Handler Unit :=
  .emit (.backendChan (.error (errorResponse env requestMap errorIndex description)))

def getTokenErrorMessage (index : Int) : Str :=
  if index = 1 then "Invalid Access Token. "
  else if index = 2 then "Access Token not found. "
  else if index = 5 then "Invalid Access Token Signature. "
  else if index = 6 then "Invalid Access Token Signature Algorithm. "
  else if index = 10 then "Invalid iat claim. Invalid time format. "
  else if index = 11 then "Invalid iat claim. Future time. "
  else if index = 15 then "Invalid exp claim. Invalid time format. "
  else if index = 16 then "Invalid exp claim. Token Expired. "
  else if index = 20 then "Invalid AUD. "
  else if index = 21 then "Invalid Context. "
  else if index = 22 then "Invalid ISS. "
  else if index = 30 then "Invalid Token: token revoked. "
  else if index ∈ [40, 41, 42] then "Internal error. "
  else if index = 60 then "Permission denied. Purpose does not match signals requested. "
  else if index = 61 then "Permission denied. Read only access mode trying to write. "
  else "Unknown error. "

def setTokenErrorResponse (errorCode : Int) : Handler Unit :=
  setErrorAndForward env requestMap 3 (getTokenErrorMessage errorCode)

def singleToDoubleQuote (jsonObject : Str) : Str :=
  jsonObject.map fun c => if c = '\'' then '"' else c

def jsonifyDefault (nodeDefault : Str) : Str :=
  match nodeDefault with
  | [] => []
  | c :: _ =>
    if c = '\x7b' ∨ c = '[' then
      "\"default\":" ++ singleToDoubleQuote nodeDefault ++ [',']
    else "\"default\":\"" ++ nodeDefault ++ "\","

def nodeTypeName : NodeType → Str
  | .sensor => "sensor"
  | .actuator => "actuator"
  | .attribute => "attribute"
  | .branch => "branch"
  | .struct => "struct"
  | .property => "property"
  | .procedure => "procedure"
  | .iostruct => "iostruct"
  | .other name => name

def jsonifyData (data : NodeData) : Str :=
  '"' :: data.name ++ "\":\x7b\"type\":\"".toList ++ nodeTypeName data.nodeType ++ "\",".toList ++
    jsonifyDefault data.defaultValue ++
    "\"description\":\"" ++ data.description ++ "\"," ++
    (if data.datatype = [] then []
    else "\"datatype\":\"".toList ++ data.datatype ++ "\",".toList)

/-- The comma at the end, unless it follows a closing bracket. -/
def dropComma (jsonBuffer : Str) : Str :=
  match jsonBuffer.reverse with
  | ',' :: c :: rest => if c = '\x7d' then jsonBuffer else (c :: rest).reverse
  | _ => jsonBuffer

mutual

/-- The first argument counts the levels that are shown. -/
def jsonifyTreeNode : Nat → Node → Str
  | 0, _ => []
  | levels + 1, .mk data child =>
    let children :=
      if 0 < levels ∧ child ≠ [] then
        ("\"children\":\x7b" ++ jsonifyChildren levels child).dropLast ++ ['\x7d']
      else []
    dropComma (jsonifyData data ++ children) ++ "\x7d,"

def jsonifyChildren : Nat → List Node → Str
  | _, [] => []
  | levels, node :: nodes => jsonifyTreeNode levels node ++ jsonifyChildren levels nodes

end

def extractNoScopeElementsLevel2 (noScopeMap : List Value) : List Str := noScopeMap.map fun
    | .str s => s
    | _ => []

def extractNoScopeElementsLevel1 : Map Value → List Str
  | [] => []
  | (_, .str s) :: _ => [s]
  | (_, .arr xs) :: _ => extractNoScopeElementsLevel2 xs
  | _ :: rest => extractNoScopeElementsLevel1 rest

def contextRequest (tokenContext : Str) : Str :=
  "\x7b\"context\":\"" ++ tokenContext ++ "\"\x7d"

def getNoScopeList (tokenContext : Str) : Handler (List Str) := do
  Act.emit (.noScope tokenContext)
  let body ← Act.await (env.ats (contextRequest tokenContext))
  match unmarshalMap body with
  | some noScopeMap => return extractNoScopeElementsLevel1 (env.order.iterate noScopeMap)
  | none => return []

def getSubTreeNodeHandle (path : Str) (searchData : List Match) : Option Node :=
  (searchData.find? fun found => found.nodePath = path).map Match.node

def shownLevels (depth : Int) : Nat := if depth = 0 then 100 else depth.toNat

def synthesizeJsonTree (path : Str) (depth : Int) (tokenContext : Str)
    (vssTreeRoot : Option Node) : Handler Str := do
  let noScopeList ← getNoScopeList env tokenContext
  let (searchData, _) ←
    Act.await (searchTree vssTreeRoot (path ++ ".*") true false noScopeList)
  match getSubTreeNodeHandle path searchData with
  | none => return []
  | some subTreeRoot =>
    match jsonifyTreeNode (shownLevels depth) subTreeRoot with
    | [] => return []
    | jsonBuffer => return '\x7b' :: jsonBuffer.dropLast ++ ['\x7d']

/-- The context of the client, or three times `Undefined`. -/
def getTokenContext (reqMap : Map Value) : Str :=
  match (getStr reqMap "authorization").map fun auth => extractFromToken env.crypto auth "clx" with
  | none | some [] => "Undefined+Undefined+Undefined"
  | some context => context

def metadataResponse (fields : List Str) (metadata : Value) (requestMap : Map Value) : Map Value :=
  set "metadata" metadata (set "ts" (.str env.rfcTime) (deleteAll fields requestMap))

def discoverTree (rootPath : Str) (depth : Int) : Handler (Option Str) :=
  if rootPath = "HIM" ∨ hasPrefix rootPath "HIM." then return some env.himJson
  else
    match treeRoot env.himForest rootPath with
    | none => return none
    | some root =>
      return some (← synthesizeJsonTree env rootPath depth (getTokenContext env requestMap) root)

def handleDiscoverRequest : Handler Unit :=
  match getStr requestMap "path" with
  | none => setErrorAndForward env requestMap 1 "missing/invalid path"
  | some rootPath =>
    match getStr requestMap "depth" with
    | none => setErrorAndForward env requestMap 1 "missing/invalid depth"
    | some depthStr =>
      match atoi depthStr with
      | none => setErrorAndForward env requestMap 1 "invalid depth"
      | some depth => do
          match (← discoverTree env requestMap rootPath depth).bind unmarshalMap with
          | none => setErrorAndForward env requestMap 0 []
          | some metadata =>
            Act.emit (.backendChan
              (.own (metadataResponse env ["path", "depth"] (.obj metadata) requestMap)))

def metadataText (rootPath : Str) (treedepth : Int)
    (vssTreeRoot : Option Node) : Handler Str :=
  if rootPath = "HIM" then pure env.himJson
  else synthesizeJsonTree env rootPath treedepth (getTokenContext env requestMap) vssTreeRoot

def answerMetadata (rootPath parameter : Str)
    (vssTreeRoot : Option Node) : Handler Unit :=
  match atoi parameter with
  | none => setErrorAndForward env requestMap 0 []
  | some treedepth => do
      let metadata ← metadataText env requestMap rootPath treedepth vssTreeRoot
      if metadata = [] then setErrorAndForward env requestMap 0 []
      else
        Act.emit (.backendChan
          (.own (metadataResponse env ["path", "filter"] (.str metadata) requestMap)))

end Vissr.Core
