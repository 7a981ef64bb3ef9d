import Vissr.Json.RoundTrip

/-! The helpers of `utils/common.go`. -/

namespace Vissr

open Json

/-- The first value of a text; what comes after it is not read. -/
def mapRequest (request : Str) : Map Value × Int :=
  match parse request with
  | some (w, _) => (w.toMap.1, if w.toMap.2 then -1 else 0)
  | none => ([], -1)

theorem mapRequest_of_parse (request rest : Str) (w : Raw) (parsed : parse request = some (w, rest)) :
    (mapRequest request).1 = w.toMap.1 := by
  rw [mapRequest, parsed]

/-- Slashes become dots, without one at the start. -/
def urlToPath (url : Str) : Str :=
  match url.map fun c => if c = '/' then '.' else c with
  | '.' :: path => path
  | path => path

structure FilterObject where
  type : Str := []
  parameter : Str := []
  deriving DecidableEq

/-- An object is taken for the parameter under whatever key it stands. -/
def unpackEntry (filter : FilterObject) : Str × Value → FilterObject
  | (k, .str s) =>
    if k = "variant" then { filter with type := s }
    else if k = "parameter" then { filter with parameter := s }
    else filter
  | (k, .arr xs) =>
    if k = "parameter" then { filter with parameter := (Value.arr xs).marshal } else filter
  | (_, .obj m) => { filter with parameter := (Value.obj m).marshal }
  | _ => filter

variable (order : MapOrder)

def unpackFilterLevel2 (filterExpression : Map Value) : FilterObject :=
  (order.iterate filterExpression).foldl unpackEntry {}

def unpackFilterLevel1 : Value → FilterObject
  | .obj m => unpackFilterLevel2 order m
  | _ => {}

def unpackFilter : Value → List FilterObject
  | .arr filters => filters.map (unpackFilterLevel1 order)
  | .obj m => [unpackFilterLevel2 order m]
  | _ => []

/-- What `strconv.ParseFloat` makes of a text it accepts. -/
inductive ParsedFloat where
  | finite
  | infinite
  | notANumber
  deriving DecidableEq

def isNumber (parseFloat : Str → Option ParsedFloat) (value : Str) : Bool :=
  parseFloat value = some .finite

def isBoolean (value : Str) : Bool := value = "true" || value = "false"

structure ErrorInformation where
  number : Str
  reason : Str
  message : Str

def errorInfoList : List ErrorInformation := [⟨"400", "bad_request", "The request is malformed."⟩,
    ⟨"400", "invalid_data", "Data present in the request is invalid."⟩,
    ⟨"401", "expired_token", "Access token has expired."⟩,
    ⟨"401", "invalid_token", "Access token is invalid."⟩,
    ⟨"401", "missing_token", "Access token is missing."⟩,
    ⟨"403", "forbidden_request", "The server refuses to carry out the request."⟩,
    ⟨"404", "unavailable_data", "The requested data was not found."⟩,
    ⟨"503", "service_unavailable", "The server is temporarily unable to handle the request."⟩]

def errorMap (errorListIndex : Nat) (altErrorMessage : Str) : Map Value :=
  match errorInfoList[errorListIndex]? with
  | some info =>
    [("number", .str info.number), ("reason", .str info.reason),
      ("description", .str (if altErrorMessage ≠ [] then altErrorMessage else info.message))]
  | none =>
    [("number", .str "500"), ("reason", .str "internal_error"),
      ("description", .str ("invalid error code " ++ itoa errorListIndex))]

/-- An index of the error list and a description. -/
structure Refusal where
  errorIndex : Nat
  description : Str := []
  deriving DecidableEq

def copyField (reqMap : Map Value) (k : Str) (errRespMap : Map Value) : Map Value :=
  match reqMap.lookup k with
  | none | some .null => errRespMap
  | some v => set k v errRespMap

/-- The map is kept from one error to the next, but for the request id. -/
def setErrorResponse (rfcTime : Str) (reqMap errRespMap : Map Value) (errorListIndex : Nat)
    (altErrorMessage : Str) : Map Value :=
  let routed := copyField reqMap "action" (copyField reqMap "RouterId" errRespMap)
  let identified :=
    if isNil reqMap "requestId" then delete "requestId" routed else copyField reqMap "requestId" routed
  set "ts" (.str rfcTime) (set "error" (.obj (errorMap errorListIndex altErrorMessage))
    (copyField reqMap "subscriptionId" identified))

def pipelineBuf : Nat := 32

/-- HTTP, WebSocket, MQTT, gRPC and Unix domain sockets. -/
def numOfTransportMgrs : Nat := 5

def finalizeMessage (responseMap : Map Value) : Str := (Value.obj (delete "origin" responseMap)).marshal

/-- A reading of the wall clock: Unix seconds and nanoseconds. -/
structure Time where
  sec : Int
  nsec : Nat
  deriving DecidableEq

/-- The value of an `int64` computation. -/
def wrap64 (n : Int) : Int := (n + 2 ^ 63) % 2 ^ 64 - 2 ^ 63

/-- Seconds from the year 1, where times begin, to the Unix epoch. -/
def unixToInternal : Int := 62135596800

/-- The `int64` that `time.Unix` keeps of a number of seconds. -/
def unixTime (seconds : Int) : Int := wrap64 (seconds + unixToInternal)

/-- `now.After(time.Unix(seconds, 0))`. -/
def Time.after (now : Time) (seconds : Int) : Bool :=
  decide (unixTime seconds < now.sec + unixToInternal) ||
    (unixTime seconds = now.sec + unixToInternal && decide (0 < now.nsec))

/-- `now.Before(time.Unix(seconds, 0))`. -/
def Time.before (now : Time) (seconds : Int) : Bool :=
  decide (now.sec + unixToInternal < unixTime seconds)

def Time.le (a b : Time) : Prop := a.sec < b.sec ∨ a.sec = b.sec ∧ a.nsec ≤ b.nsec

theorem Time.after_mono (a b : Time) (seconds : Int) (later : a.le b) (past : a.after seconds) :
    b.after seconds = true := by
  simp only [Time.after, Bool.or_eq_true, Bool.and_eq_true, decide_eq_true_eq] at past ⊢
  unfold Time.le at later
  omega

end Vissr
