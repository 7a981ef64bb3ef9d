import Vissr.Core.Discover

/-! The dispatcher of the core, from a client request to the service manager or the file transfer. -/

namespace Vissr.Core

open Json Token Tree Act

variable (env : Env)

/-- `utils.GetMaxValidation`: a matrix, and the larger number for unknown values. -/
def getMaxValidation (newValidation currentMaxValidation : Int) : Int :=
  let ni := translateToMatrixIndex newValidation.toNat
  let ci := translateToMatrixIndex currentMaxValidation.toNat
  if (ni = 0 ∧ newValidation ≠ 0) ∨ (ci = 0 ∧ currentMaxValidation ≠ 0) then
    if newValidation > currentMaxValidation then newValidation else currentMaxValidation
  else ((validationMatrix[ni]?.getD [])[ci]?).getD 0

variable (requestMap : Map Value)

def actionOf : Str := (getStr requestMap "action").getD []

def askToken (token action paths : Str) (validation : Int) : Handler TokenAnswer := do
  let answer ← await (verifyToken env.ats token action paths validation)
  emit (.verifyToken token action paths validation answer)
  return answer

def authorizeAccess (paths : Str) (maxValidation : Int) :
    Handler TokenAnswer :=
  if isNil requestMap "authorization" then return { errorCode := 2 }
  -- no validation for get and subscribe when the resource is write-only
  else if actionOf requestMap ≠ "set" ∧ maxValidation.tmod 10 ≠ 2 then
    return { errorCode := 0 }
  else
    match getStr requestMap "authorization" with
    | none => return { errorCode := 1 }
    | some authToken => askToken env authToken (actionOf requestMap) paths maxValidation

/-- An internal message needs no validation. -/
def requiredValidation (maxValidation : Int) : Int :=
  if getStr requestMap "origin" = some "internal".toList then 0 else maxValidation

/-- The handle and the gating id a request goes on with. -/
def authorizeMultiSignalAccess (paths : Str) (maxValidation : Int) :
    Handler (Option TokenAnswer) := do
  let required := requiredValidation requestMap maxValidation
  if required.tmod 10 = 0 then return some { errorCode := 0 }
  else if required.tmod 10 = 1 ∨ required.tmod 10 = 2 then
    let answer ← authorizeAccess env requestMap paths required
    if answer.errorCode ≠ 0 then
      setTokenErrorResponse env requestMap answer.errorCode
      return none
    else return some answer
  else
    setErrorAndForward env requestMap 7 []
    return none

def setIfAny (k value : Str) (requestMap : Map Value) : Map Value :=
  if value = [] then requestMap else set k (.str value) requestMap

def withAnswer (answer : TokenAnswer) (requestMap : Map Value) : Map Value :=
  setIfAny "gatingId" answer.gatingId (setIfAny "handle" answer.handle requestMap)

def forwardAuthorized (paths : Str) (maxValidation : Int)
    (rewritten : Map Value) : Handler Unit := do
  match ← authorizeMultiSignalAccess env requestMap paths maxValidation with
  | none => return ()
  | some answer => emit (.serviceDataChan (withAnswer answer rewritten))

/-- `hex.DecodeString`. -/
def hexDecode : Str → Option Bytes
  | [] => some []
  | a :: b :: rest =>
    if isHex a && isHex b then
      (hexDecode rest).map fun bytes => (16 * hexValue a + hexValue b) :: bytes
    else none
  | [_] => none

/-- `hex.EncodeToString`. -/
def hexEncode (bytes : Bytes) : Str :=
  bytes.flatMap fun b => [Nat.digitChar (b / 16), Nat.digitChar (b % 16)]

/-- Name, hash and uid; a member that is not a string spoils all of them. -/
def getFileDescriptorData : Value → Str × Str × Str
  | .obj m =>
    if m.all fun p => match p.2 with | .str _ => true | _ => false then
      ((getStr m "name").getD [], (getStr m "hash").getD [], (getStr m "uid").getD [])
    else ([], [], [])
  | _ => ([], [], [])

def getInternalFileName (path : Str) : Str × Str :=
  if path = "Vehicle.UploadFile" then ([], "upload.txt") else ([], [])

def askFileTransfer (ftInitData : FileTransferCache) : Handler Int := do
  emit (.ftChannel ftInitData)
  await (env.fileTransfer ftInitData)

def initiateDownload (value : Value) : Handler Answer :=
  let (name, hash, uidString) := getFileDescriptorData value
  if name = [] then return .error (errorResponse env requestMap 1 "invalid file descriptor")
  else
    match hexDecode uidString with
    | none => return .error (errorResponse env requestMap 1 "invalid uid")
    | some uid =>
      if uid.length ≠ uidLen then return .error (errorResponse env requestMap 1 "invalid uid")
      else do
        let status ← askFileTransfer env { uid, name, hash, path := "./" }
        if status = 0 then
          return .own [("RouterId", .str ((getStr requestMap "RouterId").getD [])),
            ("action", .str "set"), ("ts", .str env.rfcTime)]
        else return .error (errorResponse env requestMap 7 [])

def initiateUpload (reqPath : Str) : Handler Answer :=
  let (path, name) := getInternalFileName reqPath
  if name = [] then return .error (errorResponse env requestMap 1 "unknown upload path")
  else
    let hash := env.calculateHash (path ++ name)
    match env.random with
    | none => return .error (errorResponse env requestMap 7 [])
    | some uid => do
        let _ ← askFileTransfer env { uid, name, hash, path, uploadTransfer := true }
        let value := "\x7b\"name\": \"" ++ name ++ "\", \"hash\":\"" ++ hash ++
          "\",\"uid\":\"" ++ hexEncode uid ++ "\"\x7d"
        return .own [("RouterId", .str ((getStr requestMap "RouterId").getD [])),
          ("action", .str "get"), ("path", .str reqPath), ("value", .str value),
          ("ts", .str env.rfcTime)]

def initiateFileTransfer (nodeType : NodeType) : Handler Answer :=
  if actionOf requestMap = "set" ∧ nodeType = .actuator then
    match requestMap.lookup "value".toList with
    | none | some .null =>
      return .error (errorResponse env requestMap 1 "missing value for FileDescriptor set")
    | some value => initiateDownload env requestMap value
  else if actionOf requestMap = "get" ∧ nodeType = .sensor then
    match getStr requestMap "path" with
    | none => return .error (errorResponse env requestMap 1 "missing/invalid path")
    | some reqPath => initiateUpload env requestMap reqPath
  else return .error (errorResponse env requestMap 1 [])

def expandPathFilter (parameter rootPath : Str) : Option (List Str) :=
  let below := fun path => rootPath ++ '.' :: urlToPath path
  if contains parameter "[" then
    match parseAll parameter with
    | some (.arr paths) => (paths.mapM fun path => decodeStr path []).map (List.map below)
    | some .null => some []
    | _ => none
  else some [below parameter]

inductive FilterPlan where
  | search (searchPath : List Str)
  | metadata (parameter : Str)
  | malformed

/-- Only the first filter for paths or metadata counts. -/
def planFilters (rootPath : Str) : List FilterObject → FilterPlan
  | [] => .search []
  | filter :: rest =>
    if filter.type = "paths" then
      match expandPathFilter filter.parameter rootPath with
      | some searchPath => .search searchPath
      | none => .malformed
    else if filter.type = "metadata" then .metadata filter.parameter
    else planFilters rootPath rest

def filtersOf : List FilterObject :=
  match requestMap.lookup "filter".toList with
  | none => []
  | some filter => unpackFilter env.order filter

structure Found where
  /-- the matches for all paths so far -/
  matched : List Match := []
  /-- the matches for the last path -/
  searchData : List Match := []
  maxValidation : Int := -1

def Found.add (found : Found) (round : List Match × Int) : Found :=
  { matched := found.matched ++ round.1
    searchData := round.1
    maxValidation := getMaxValidation round.2 found.maxValidation }

/-- One search path. Nothing is a panic. -/
def searchPathRound (root : Option Node) (requestMap : Map Value) (found : Found)
    (path : Str) : Option (Except Refusal Found) :=
  (searchTree root path true true []).bind fun round =>
    match round.1 with
    | [] => some (.error { errorIndex := 6 })
    | first :: _ =>
      if actionOf requestMap = "set" then
        (validateStructSetValue env first.node.data.datatype (requestMap.lookup "value".toList)).map
          fun errMsg => if errMsg = [] then .ok (found.add round) else .error ⟨1, errMsg⟩
      else some (.ok (found.add round))

def searchPaths (root : Option Node) (requestMap : Map Value) :
    List Str → Found → Option (Except Refusal Found)
  | [], found => some (.ok found)
  | path :: rest, found =>
    (searchPathRound env root requestMap found path).bind fun
      | .error refusal => some (.error refusal)
      | .ok found => searchPaths root requestMap rest found

/-- An array of several paths, or one without quotes. -/
def forwardedPath (ps : List Str) : Str :=
  let paths := requestPaths ps
  if ps.length = 1 ∧ 2 ≤ paths.length then (paths.drop 1).dropLast else paths

def serveFound (filterList : List FilterObject) (found : Found) :
    Handler Unit :=
  match found.searchData with
  | [] => halt
  | first :: _ =>
    if contains first.node.data.datatype ".FileDescriptor" then do
      let response ← initiateFileTransfer env requestMap first.node.data.nodeType
      emit (.backendChan response)
    else
      match validateData env requestMap first filterList with
      | some (errorIndex, description) =>
        setErrorAndForward env requestMap errorIndex description
      | none =>
        let ps := found.matched.map matchPath
        forwardAuthorized env requestMap (requestPaths ps) found.maxValidation
          (set "path" (.str (forwardedPath ps)) requestMap)

def serveSignals (root : Option Node) (requestMap : Map Value) (rootPath : Str) : Handler Unit :=
  match planFilters rootPath (filtersOf env requestMap) with
  | .malformed => setErrorAndForward env requestMap 0 []
  | .metadata parameter => answerMetadata env requestMap rootPath parameter root
  | .search searchPath =>
    match searchPaths env root requestMap (if searchPath = [] then [rootPath] else searchPath) {} with
    | none => halt
    | some (.error refusal) =>
      setErrorAndForward env requestMap refusal.errorIndex refusal.description
    | some (.ok found) => serveFound env requestMap (filtersOf env requestMap) found

def isInternalAction (action : Str) : Bool :=
  action = "internal-killsubscriptions" || action = "internal-cancelsubscription"

/-- The forest itself is asked for, with a filter. -/
def asksForest (rootPath : Str) : Bool :=
  rootPath = "HIM" && actionOf requestMap = "get" && !isNil requestMap "filter"

def issueServiceRequest : Handler Unit :=
  if isInternalAction (actionOf requestMap) then emit (.serviceDataChan requestMap)
  else
    match getStr requestMap "path" with
    | none => setErrorAndForward env requestMap 1 "missing/invalid path"
    | some rootPath =>
      if asksForest requestMap rootPath then serveSignals env none requestMap rootPath
      else
        match setRootNodePointer env.himForest rootPath with
        | none => setErrorAndForward env requestMap 0 []
        | some tree =>
          match tree.handle with
          | none => setErrorAndForward env requestMap 0 []
          | some root =>
            serveSignals env (some root)
              (set "infoType" (.str (getInfoType tree)) requestMap) rootPath

def isMultiSignalRequest : Bool := (actionOf requestMap = "get" || actionOf requestMap = "set") &&
    (requestMap.lookup "path".toList).isNone &&
    match requestMap.lookup "data".toList with
    | some (.arr _) => true
    | _ => false

/-- A path resolved to its first match, with the validation of all. -/
structure Signal where
  found : Match
  validation : Int
  value : Value := .null

/-- Nothing is a panic; no signal means the path does not resolve. -/
def resolveSignalPath (path : Str) : Option (Option Signal) :=
  match treeRoot env.himForest path with
  | none => some none
  | some root =>
    (searchTree (some root) path true true []).map fun (searchData, validation) =>
      searchData.head?.map fun found => { found, validation }

def resolveGetElement : Value → Option (Except Refusal Signal)
  | .str pathStr =>
    (resolveSignalPath env (urlToPath pathStr)).map fun
      | none => .error { errorIndex := 6 }
      | some signal => .ok signal
  | _ => some (.error ⟨1, "data array element must be a path string"⟩)

def checkSetSignal (value : Value) (signal : Signal) : Option (Except Refusal Signal) :=
  if signal.found.node.data.nodeType ≠ .actuator then
    some (.error ⟨1, "Forbidden to write to read-only resource"⟩)
  else
    (validateStructSetValue env signal.found.node.data.datatype (some value)).map fun errMsg =>
      if errMsg = [] then .ok { signal with value } else .error ⟨1, errMsg⟩

def resolveSetElement : Value → Option (Except Refusal Signal)
  | .obj elem =>
    match getStr elem "path" with
    | none => some (.error ⟨1, "data array element missing/invalid path"⟩)
    | some pathStr =>
      match elem.lookup "value".toList with
      | none => some (.error ⟨1, "data array element missing value"⟩)
      | some value =>
        (resolveSignalPath env (urlToPath pathStr)).bind fun
          | none => some (.error { errorIndex := 6 })
          | some signal => checkSetSignal env value signal
  | _ => some (.error ⟨1, "data array element must be a path/value object"⟩)

def resolveElements (resolve : Value → Option (Except Refusal Signal)) :
    List Value → Option (Except Refusal (List Signal))
  | [] => some (.ok [])
  | element :: rest =>
    (resolve element).bind fun
      | .error refusal => some (.error refusal)
      | .ok signal =>
        (resolveElements resolve rest).map fun
          | .error refusal => .error refusal
          | .ok signals => .ok (signal :: signals)

variable (signals : List Signal)

def signalPaths : List Str := signals.map fun signal => matchPath signal.found

def signalsValidation : Int :=
  signals.foldl (fun total signal => getMaxValidation signal.validation total) (-1)

def Signal.toValue (signal : Signal) : Value :=
  .obj [("path", .str (matchPath signal.found)), ("value", signal.value)]

def rewriteGet : Map Value :=
  set "path" (.str (multiPaths (signalPaths signals))) (delete "data" requestMap)

def rewriteSet : Map Value := set "data" (.arr (signals.map Signal.toValue)) requestMap

def handleElements (dataArray : List Value)
    (resolve : Value → Option (Except Refusal Signal))
    (rewrite : Map Value → List Signal → Map Value) : Handler Unit :=
  if dataArray.isEmpty then setErrorAndForward env requestMap 1 "missing/invalid data"
  else
    match resolveElements resolve dataArray with
    | none => halt
    | some (.error refusal) =>
      setErrorAndForward env requestMap refusal.errorIndex refusal.description
    | some (.ok signals) =>
      forwardAuthorized env requestMap (multiPaths (signalPaths signals))
        (signalsValidation signals) (rewrite requestMap signals)

def dataArrayOf : List Value :=
  match requestMap.lookup "data".toList with
  | some (.arr dataArray) => dataArray
  | _ => []

def handleMultiGetRequest : Handler Unit :=
  handleElements env requestMap (dataArrayOf requestMap) (resolveGetElement env) rewriteGet

def handleMultiSetRequest : Handler Unit :=
  handleElements env requestMap (dataArrayOf requestMap) (resolveSetElement env) rewriteSet

def handleMultiSignalRequest : Handler Unit :=
  if actionOf requestMap = "get" then handleMultiGetRequest env requestMap
  else handleMultiSetRequest env requestMap

def withDots : Map Value :=
  match getStr requestMap "path" with
  | some p => set "path" (.str (urlToPath p)) requestMap
  | none => requestMap

def dispatch : Handler Unit :=
  if actionOf requestMap = "unsubscribe" then emit (.serviceDataChan requestMap)
  else if actionOf requestMap = "discover" then handleDiscoverRequest env requestMap
  else if isMultiSignalRequest requestMap then handleMultiSignalRequest env requestMap
  else issueServiceRequest env requestMap

def serveRequest : Handler Unit := dispatch env (withDots requestMap)

end Vissr.Core
