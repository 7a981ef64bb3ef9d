import Vissr.Core.VerifyToken

/-! What the core checks about a request (`server/vissv2server/vissv2server.go`): structs and
filters. -/

namespace Vissr.Core

open Json Token Tree

def uidLen : Nat := 4

/-- The fields of a file transfer that the core sets or reads. -/
structure FileTransferCache where
  uid : Bytes := List.replicate uidLen 0
  uploadTransfer : Bool := false
  path : Str := []
  name : Str := []
  hash : Str := []

/-- What the core reads besides the request. -/
structure Env where
  himForest : Forest
  order : MapOrder
  crypto : Crypto
  /-- the access token server; it may not answer -/
  ats : Str → Option Str
  /-- the file transfer server: the status in its reply -/
  fileTransfer : FileTransferCache → Option Int
  /-- the response of the last error, which the next one is written over -/
  errorResponseMap : Map Value
  rfcTime : Str
  /-- what `himJsonify` makes of the file `viss.him` -/
  himJson : Str
  calculateHash : Str → Str
  /-- the bytes `rand.Read` delivers, unless it fails -/
  random : Option Bytes
  parseFloat : Str → Option ParsedFloat
  toLower : Str → Str
  equalFold : Str → Str → Bool

def treeRoot (himForest : Forest) (path : Str) : Option Node :=
  (setRootNodePointer himForest path).bind HimTree.handle

/-- The validation stays at -1 without a search. A missing root is a panic. -/
def searchTree (rootNode : Option Node) (path : Str) (anyDepth leafNodesOnly : Bool)
    (noScopeList : List Str) : Option (List Match × Int) :=
  if path = [] then some ([], -1)
  else
    rootNode.bind fun root =>
      (vssSearchNodes path root anyDepth leafNodesOnly noScopeList).map fun (found, validation) =>
        (found, validation)

def matchPath (found : Match) : Str := found.nodePath.takeWhile (· ≠ '\x00')

def getLastDotSegment (path : Str) : Str := (afterLast '.' path).getD path

variable (env : Env)

def isStructMemberType (datatype : Str) : Bool :=
  hasPrefix datatype "Types" && !("[]".toList).isSuffixOf datatype

def verifyStructMember (memberName : Str) (typeSearch : List Match) : Bool :=
  typeSearch.any fun found =>
    env.toLower memberName = env.toLower (getLastDotSegment found.nodePath)

/-- The first member stands in for one that is not found. -/
def memberDatatype (memName : Str) (typeSearch : List Match) : Str :=
  let named := typeSearch.find? fun found =>
    env.equalFold (getLastDotSegment found.nodePath) memName
  ((named.or typeSearch.head?).map fun found => found.node.data.datatype).getD []

/-- In the order of the walk; `verify` checks an inline struct. -/
def verifyStructMembers (verify : Map Value → Str → Option Str) (typeSearch : List Match) :
    Map Value → Option Bool
  | [] => some true
  | (memName, memValue) :: rest =>
    if verifyStructMember env memName typeSearch then
      match memValue with
      | .obj memValueMap =>
        (verify memValueMap (memberDatatype env memName typeSearch)).bind fun res =>
          if res = "ok" then verifyStructMembers verify typeSearch rest else some false
      | _ =>
        if isStructMemberType (memberDatatype env memName typeSearch) then some false
        else verifyStructMembers verify typeSearch rest
    else some false

/-- The first argument counts the levels that may still be entered. -/
def verifyStruct : Nat → Map Value → Str → Option Str
  | levels, value, typePath =>
    match treeRoot env.himForest (rootSegment typePath) with
    | none => some "Struct cannot be verified"
    | some typeDefRoot =>
      match levels with
      | 0 => some "Incorrect struct data"
      | levels + 1 =>
        (searchTree (some typeDefRoot) (typePath ++ ".*") true true []).bind
          fun (typeSearch, _) =>
            if typeSearch.isEmpty then some "Incorrect struct data"
            else
              (verifyStructMembers env (verifyStruct levels) typeSearch
                (env.order.iterate value)).map fun correct =>
                  if correct then "ok" else "Incorrect struct data"

/-- Empty for an accepted value. Six levels of structs are looked at. -/
def validateStructSetValue (datatype : Str) (value : Option Value) : Option Str :=
  if hasPrefix datatype "Types" then
    match value with
    | some (.obj val) =>
      (verifyStruct env 6 val datatype).map fun (res : Str) => if res = "ok" then [] else res
    | _ => some "struct value must be an object"
  else some []

def getRangeBoundary (pMap : Map Value) : Str := (getStr pMap "boundary").getD []

/-- The error, if the filter is not valid. The parameter of a range is decoded into a map, so an
array leaves no boundary. -/
def validateFilter (filter : FilterObject) : Option (Nat × Str) :=
  let paramMap := (mapRequest filter.parameter).1
  if filter.type = "range" then
    if isNumber env.parseFloat (getRangeBoundary paramMap) then none
    else some (1, "Invalid range boundary datatype")
  else if filter.type = "change" then
    match getStr paramMap "diff" with
    | none => some (1, "change filter missing/invalid diff")
    | some diff =>
      if isNumber env.parseFloat diff || isBoolean diff then none
      else some (1, "Invalid change diff datatype")
  else if filter.type = "curvelog" then
    match getStr paramMap "maxerr" with
    | none => some (1, "curvelog filter missing/invalid maxerr")
    | some maxerr =>
      if isNumber env.parseFloat maxerr then none
      else some (1, "Invalid curve log maxerr datatype")
  else none

def validateData (requestMap : Map Value) (first : Match) (filterList : List FilterObject) :
    Option (Nat × Str) :=
  if getStr requestMap "action" = some "set".toList ∧ first.node.data.nodeType ≠ .actuator then
    some (1, "Forbidden to write to read-only resource")
  else if isNil requestMap "filter" then none
  else filterList.findSome? (validateFilter env)

end Vissr.Core
