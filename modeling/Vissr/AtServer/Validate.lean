import Vissr.AtServer.Request

/-! The requests of the server core: token validation and no-access scopes. -/

namespace Vissr.AtServer

open Json Token Option

structure AtValidatePayload where
  token : Str := []
  paths : List Str := []
  action : Str := []
  validation : Str := []
  deriving DecidableEq

/-- An element that is not a string leaves an empty path. -/
def extractAtValidatePayloadLevel2 (pathList : List Value) : List Str := pathList.map fun v =>
    match v with
    | .str s => s
    | _ => []

/-- Every array is taken for the paths, whatever its key. -/
def storeEntry (payload : AtValidatePayload) (entry : Str × Value) : AtValidatePayload :=
  match entry.2 with
  | .arr pathList => { payload with paths := extractAtValidatePayloadLevel2 pathList }
  | .str s =>
    if entry.1 = "token" then { payload with token := s }
    else if entry.1 = "action" then { payload with action := s }
    else if entry.1 = "validation" then { payload with validation := s }
    else if entry.1 = "paths" then { payload with paths := [s] }
    else payload
  | _ => payload

def extractAtValidatePayloadLevel1 (atValidateMap : Map Value) : AtValidatePayload :=
  atValidateMap.foldl storeEntry {}

variable (token : Str) (state : State)

/-- The first slot with this token or handle, occupied or not. -/
def getCompleteToken : Str :=
  if token = [] then []
  else
    match state.activeList.first fun elem => token = elem.atoken || token = elem.atokenHandle with
    | some i => (state.activeList.get i).atoken
    | none => []

def getGatingIdAndTokenHandle : Str × Str :=
  if token = [] then ([], [])
  else
    match state.activeList.first fun elem => token = elem.atoken with
    | some i => (itoa (state.activeList.get i).gatingId, (state.activeList.get i).atokenHandle)
    | none => ([], [])

variable (config : Config) (now : Time)

def validateTokenExpiry (token : Str) : Int :=
  match atoi (extractFromToken config.crypto token "iat") with
  | none => 10
  | some iat =>
    if now.before iat then 11
    else
      match atoi (extractFromToken config.crypto token "exp") with
      | none => 15
      | some exp => if now.after exp then 16 else 0

/-- The checks in their order. A panic of a search is none. -/
def validateToken (token action : Str) (paths : List Str) :
    Option Int :=
  if !verifyTokenSignature config.crypto token config.theAtSecret then some 5
  else if extractFromToken config.crypto token "aud" ≠ atAudience then some 20
  else if extractFromToken config.crypto token "iss" ≠ config.atIssuer then some 22
  else
    (validateRequestAccess config.himForest config.pList
        (extractFromToken config.crypto token "scp") action paths).map fun res =>
      if res ≠ 0 then res else validateTokenExpiry config now token

structure Validation where
  validation : Int
  gatingId : Str := []
  handle : Str := []
  deriving DecidableEq

def Validation.render (answer : Validation) : Str :=
  if answer.validation ≠ 0 then
    "\x7b\"validation\":\"" ++ itoa answer.validation ++ "\"\x7d"
  else if answer.handle ≠ [] then
    "\x7b\"validation\":\"0\", \"gatingId\":\"" ++ answer.gatingId ++
      "\", \"handle\":\"" ++ answer.handle ++ "\"\x7d"
  else
    "\x7b\"validation\":\"0\", \"gatingId\":\"" ++ answer.gatingId ++ "\"\x7d"

def answerFor (res : Int) : Validation :=
  if res ≠ 0 then { validation := res }
  else
    { validation := 0
      gatingId := (getGatingIdAndTokenHandle token state).1
      handle := (getGatingIdAndTokenHandle token state).2 }

def tokenValidationResponse (order : MapOrder) (input : Str)
    (state : State) : Option Validation :=
  match unmarshalMap input with
  | none => some { validation := 1 }
  | some inputMap =>
    let payload := extractAtValidatePayloadLevel1 (order.iterate inputMap)
    let token := getCompleteToken payload.token state
    (validateToken config now token payload.action payload.paths).map (answerFor token state)

def noScopeResponse (input : Str) : Option Str :=
  match (parseAll input).bind fun w => decodeStruct [⟨"context", decodeStr⟩] w [] with
  | none => some "\x7b\"no_access\":\"\"\x7d"
  | some context =>
    (getNoAccessScope config.sList context).map fun res =>
      "\x7b\"no_access\":" ++ res ++ "\x7d"

/-- A request of the core is told by a word anywhere in its text. -/
def generateParentResponse (order : MapOrder) (input : Str)
    (state : State) : Option Str :=
  if contains input "context" then noScopeResponse config input
  else (tokenValidationResponse config now order input state).map Validation.render

variable {config : Config} {now : Time} {order : MapOrder} {input : Str} {state : State}

theorem getCompleteToken_cases (state : State) : getCompleteToken token state = [] ∨
      ∃ i, getCompleteToken token state = (state.activeList.get i).atoken ∧
        (token = (state.activeList.get i).atoken ∨
          token = (state.activeList.get i).atokenHandle) := by
  unfold getCompleteToken
  split_ifs
  · exact .inl rfl
  · split
    · next i found =>
      have hit := (Slots.first_eq_some _ _ _ found).1
      exact .inr ⟨i, rfl, by simpa using hit⟩
    · exact .inl rfl

theorem verifyTokenSignature_nil (crypto : Crypto) (key : Str) :
    verifyTokenSignature crypto [] key = false := rfl

theorem validateTokenExpiry_zero {token : Str} (valid : validateTokenExpiry config now token = 0) :
    ∃ exp, atoi (extractFromToken config.crypto token "exp") = some exp ∧
      now.after exp = false := by
  unfold validateTokenExpiry at valid
  split at valid
  · cases valid
  · split_ifs at valid
    · cases valid
    · split at valid
      · cases valid
      · next exp time =>
        split_ifs at valid with past
        · cases valid
        · exact ⟨exp, time, Bool.eq_false_iff.mpr past⟩

theorem validateToken_zero {token action : Str} {paths : List Str}
    (valid : validateToken config now token action paths = some 0) :
    verifyTokenSignature config.crypto token config.theAtSecret = true ∧
      validateRequestAccess config.himForest config.pList
        (extractFromToken config.crypto token "scp") action paths = some 0 ∧
      validateTokenExpiry config now token = 0 := by
  unfold validateToken at valid
  split_ifs at valid with signature aud iss
  · cases valid
  · cases valid
  · cases valid
  · obtain ⟨res, access, rest⟩ := map_eq_some_iff.mp valid
    split_ifs at rest with refused
    · exact absurd rest refused
    · have granted : res = 0 := not_not.mp refused
      subst granted
      exact ⟨by simpa using signature, access, rest⟩

theorem tokenValidationResponse_zero {answer : Validation}
    (answered : tokenValidationResponse config now order input state = some answer)
    (valid : answer.validation = 0) : ∃ inputMap, unmarshalMap input = some inputMap ∧
      validateToken config now
        (getCompleteToken (extractAtValidatePayloadLevel1 (order.iterate inputMap)).token state)
        (extractAtValidatePayloadLevel1 (order.iterate inputMap)).action
        (extractAtValidatePayloadLevel1 (order.iterate inputMap)).paths = some 0 := by
  unfold tokenValidationResponse at answered
  split at answered
  · cases answered
    cases valid
  · next inputMap decoded =>
    obtain ⟨res, checked, same⟩ := map_eq_some_iff.mp answered
    subst same
    refine ⟨inputMap, decoded, ?_⟩
    rw [checked]
    unfold answerFor at valid
    split_ifs at valid with refused
    · exact absurd valid refused
    · rw [not_not.mp refused]

end Vissr.AtServer
