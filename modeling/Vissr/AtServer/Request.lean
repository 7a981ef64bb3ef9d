import Vissr.AtServer.State

/-! The requests of clients and of the external consent framework. -/

namespace Vissr.AtServer

open Json Token

variable (config : Config) (now : Time)

def validateTokenTimestamps (iat exp : Int) : Bool := !now.before iat && !now.after exp

/-- Whether the id is new; it is remembered in any case. -/
def addCheckJti (jti : Str) (state : State) : State × Bool :=
  if jti ∈ state.jtiCache then (state, false)
  else ({ state with jtiCache := jti :: state.jtiCache }, true)

/-- The difference allowed between clocks, in seconds. -/
def gap : Int := 3
def lifetime : Int := 5

variable (payload : AtGenPayload) (state : State)

/-- The error of a proof. Its id is used up before anything is checked. -/
def validatePop : State × Option Str :=
  let (state, fresh) := addCheckJti (claim payload.popTk.payloadClaims "jti") state
  if !fresh then (state, some "\x7b\"error\": \"Repeated JTI\"\x7d")
  else if !payload.popTk.checkSignature config.crypto then
    (state, some "\x7b\"error\": \"Cannot validate POP signature\"\x7d")
  else if !payload.popTk.checkIat now gap lifetime then
    (state, some "\x7b\"error\": \"Cannot validate POP iat\"\x7d")
  else if !payload.popTk.checkThumb (claim payload.agt.payloadClaims "pub") then
    (state, some "\x7b\"error\": \"Keys in POP and AGToken are not matching\"\x7d")
  else if !payload.popTk.checkAud "vissv2/agts" then
    (state, some "\x7b\"error\": \"Invalid aud\"\x7d")
  else (state, none)

def checkAgtSignature : Bool :=
  match base64Decode payload.agt.token.encodedSignature with
  | some signature =>
    config.crypto.rsaVerify config.agtKey.1 config.agtKey.2 payload.agt.token.signed signature
  | none => false

def checkPop : State × Option Str :=
  if claim payload.agt.payloadClaims "pub" = [] then (state, none)
  else validatePop config now payload state

/-- The error of a request, if it has one. Every vehicle id is accepted. -/
def validateRequest : State × Option Str :=
  if !checkAgtSignature config payload then
    (state, some "\x7b\"error\": \"AG token signature validation failed\"\x7d")
  else
    match atoi (claim payload.agt.payloadClaims "iat"),
        atoi (claim payload.agt.payloadClaims "exp") with
    | none, _ => (state, some "\x7b\"error\": \"AG token iat timestamp malformed\"\x7d")
    | some _, none => (state, some "\x7b\"error\": \"AG token exp timestamp malformed\"\x7d")
    | some iat, some exp =>
      if !validateTokenTimestamps now iat exp then
        (state, some "\x7b\"error\": \"AG token timestamp validation failed\"\x7d")
      else
        let (state, popError) := checkPop config now payload state
        match popError with
        | some error => (state, some error)
        | none =>
          if validatePurpose config.pList payload.purpose
              (claim payload.agt.payloadClaims "clx") then (state, none)
          else (state, some "\x7b\"error\": \"Purpose validation failed\"\x7d")

def atDuration : Int := 1 * 60 * 60

def atAudience : Str := "w3org/gen2"

/-- What is issued in place of a token when there is no random id for it. -/
def internalError : Str := "\x7b\"error\": \"Internal error\"\x7d"

def atClaims (config : Config) (now : Time) (id : Str) (payload : AtGenPayload) :
    List (Str × Str) :=
  [("iat", itoa now.sec), ("exp", itoa (now.sec + atDuration)),
   ("scp", payload.purpose),
   ("clx", claim payload.agt.payloadClaims "clx"),
   ("aud", atAudience),
   ("iss", config.atIssuer),
   ("jti", id)]

def atJwt (config : Config) (now : Time) (id : Str) (payload : AtGenPayload) : JsonWebToken :=
  addClaims (atClaims config now id payload) (JsonWebToken.setHeader "HS256" {})

def generateAt (config : Config) (now : Time) (uuid : Option Str) (payload : AtGenPayload) : Str :=
  match uuid with
  | none => internalError
  | some id =>
    ((atJwt config now id payload).symmSign config.crypto config.theAtSecret).getFullToken

def newGatingId : State := { state with gatingId := (state.gatingId + 1) % 9999 }

inductive AtResponse where
  | requestMalformed
  | agtMalformed
  | popMalformed
  | invalid (error : Str)
  | pending (sessionId : Int)
  | noConsentFramework
  | issued (token : Str)
  deriving DecidableEq

def AtResponse.render : AtResponse → Str
  | .requestMalformed =>
    "\x7b\"action\": \"at-request\", \"error\": \"Client request malformed\"\x7d"
  | .agtMalformed => "\x7b\"action\": \"at-request\", \"error\":\"AGT Malformed\"\x7d"
  | .popMalformed => "\x7b\"action\": \"at-request\", \"error\":\"POP malformed\"\x7d"
  | .invalid error => error
  | .pending sessionId =>
    "\x7b\"action\": \"at-request\", \"sessionId\":\"" ++ itoa sessionId ++
      "\", \"consent\":\"NOT_SET\"\x7d"
  | .noConsentFramework =>
    "\x7b\"action\": \"at-request\", \"error\":\"consent framework not accessible\"\x7d"
  | .issued token =>
    "\x7b\"action\": \"at-request\", \"aToken\":\"" ++ token ++ "\"\x7d"

def decodeAtGenPayload (config : Config) (request : Str) : Except AtResponse AtGenPayload :=
  match (parseAll request).bind fun w => decodeStruct AtGenPayload.fields w {} with
  | none => .error .requestMalformed
  | some payload =>
    match payload.agt.decodeFromFull payload.token with
    | none => .error .agtMalformed
    | some agt =>
      if payload.pop = [] then .ok { payload with agt }
      else
        match payload.popTk.unmarshal config.crypto payload.pop with
        | none => .error .popMalformed
        | some popTk => .ok { payload with agt, popTk }

def getSignalAccess (pList : List PurposeElement) (purpose : Str) : Str :=
  match pList.find? fun element => element.short = purpose with
  | some element =>
    (Value.arr (element.access.map fun access =>
      .obj [("Path", .str access.path), ("Permission", .str access.permission)])).marshal
  | none => []

def consentAsk (config : Config) (payload : AtGenPayload) (gatingId : Int) : Str :=
  "\x7b\"action\": \"consent-ask\", \"user-roles\": \"" ++
    claim payload.agt.payloadClaims "clx" ++ "\", \"purpose\": \"" ++ payload.purpose ++
    "\", \"signal_access\":" ++ getSignalAccess config.pList payload.purpose ++
    ", \"messageId\": \"" ++ itoa gatingId ++ "\"\x7d"

/-- The state, the answer, and what goes to the consent framework. -/
def grant (config : Config) (now : Time) (uuid : Option Str) (payload : AtGenPayload)
    (requiresConsent : Bool) (state : State) : State × AtResponse × Option Str :=
  if requiresConsent then
    if state.ecfAvailable then
      (writeToPendingList config state.gatingId payload state, .pending state.gatingId,
        some (consentAsk config payload state.gatingId))
    else (state, .noConsentFramework, none)
  else
    (writeToActiveList config state.gatingId (generateAt config now uuid payload) state,
      .issued (generateAt config now uuid payload), none)

/-- An at-request; a panic of the search for its paths is none. -/
def accessTokenResponse (config : Config) (now : Time) (uuid : Option Str) (request : Str)
    (state : State) : Option (State × AtResponse × Option Str) :=
  match decodeAtGenPayload config request with
  | .error response => some (state, response, none)
  | .ok payload =>
    match validateRequest config now payload state with
    | (state, some error) => some (state, .invalid error, none)
    | (state, none) =>
      (checkifConsent config.himForest config.pList payload.purpose).map fun requiresConsent =>
        grant config now uuid payload requiresConsent (newGatingId state)

inductive InquiryResponse where
  | notSet (sessionId : Int)
  | no
  | issued (token consent : Str)
  | notFound
  deriving DecidableEq

def InquiryResponse.render : InquiryResponse → Str
  | .notSet sessionId =>
    "\x7b\"action\": \"at-inquiry\", \"sessionId\":\"" ++ itoa sessionId ++
      "\", \"consent\":\"NOT_SET\"\x7d"
  | .no => "\x7b\"action\": \"at-inquiry\", \"consent\":\"NO\"\x7d"
  | .issued token consent =>
    "\x7b\"action\": \"at-inquiry\", \"aToken\":\"" ++ token ++
      "\", \"consent\":\"" ++ consent ++ "\"\x7d"
  | .notFound => "\x7b\"action\": \"at-inquiry\", \"error\":\"404 - Not-found\"\x7d"

def extractKeyValue (key input : Str) : Str :=
  match unmarshalMap input with
  | some inputMap => (getStr inputMap key).getD []
  | none => []

/-- An id that cannot be read is -1, which also marks a free slot. -/
def extractGatingId (input : Str) : Int := (atoi (extractKeyValue "sessionId" input)).getD (-1)

def consentInquiryResponse (config : Config) (now : Time) (uuid : Option Str) (input : Str)
    (state : State) : State × InquiryResponse :=
  let gatingId := extractGatingId input
  match state.pendingList.first fun elem => elem.gatingId = gatingId with
  | none => (state, .notFound)
  | some i =>
    let elem := state.pendingList.get i
    if elem.consent = "NOT_SET" then (state, .notSet gatingId)
    else if elem.consent = "NO" then (removeFromPendingList i state, .no)
    else
      let token := generateAt config now uuid elem.atGenData
      (writeToActiveList config gatingId token (removeFromPendingList i state),
        .issued token elem.consent)

inductive EcfResponse where
  | badRequest
  | unauthorized
  | ok
  | notFound
  deriving DecidableEq

def EcfResponse.render (action : Str) (response : EcfResponse) : Str :=
  let status : Str :=
    match response with
    | .badRequest => "401-Bad request"
    | .unauthorized => "401-Unauthorized"
    | .ok => "200-OK"
    | .notFound => "404-Not found"
  "\x7b\"action\":\"" ++ action ++ "\", \"status\":\"" ++ status ++ "\"\x7d"

def hexEncode (bytes : Bytes) : Str :=
  bytes.flatMap fun b => [Nat.digitChar (b / 16), Nat.digitChar (b % 16)]

def computeEcfHmac (config : Config) (action messageId consent : Str) : Str :=
  hexEncode (config.crypto.hmac config.ecfSecret
    (action ++ '|' :: messageId ++ '|' :: consent))

/-- Without a secret every message is accepted. -/
def verifyEcfHmac (config : Config) (action messageId consent presented : Str) : Bool :=
  config.ecfSecret = [] || computeEcfHmac config action messageId consent = presented

def parseConsentReply (config : Config) (request : Str) : Except EcfResponse (Int × Str) :=
  match unmarshalMap request with
  | none => .error .badRequest
  | some requestMap =>
    match getStr requestMap "messageId", getStr requestMap "consent" with
    | some messageId, some consent =>
      if !verifyEcfHmac config "consent-reply" messageId consent
          ((getStr requestMap "hmac").getD []) then .error .unauthorized
      else
        match atoi messageId with
        | some gatingId => .ok (gatingId, consent)
        | none => .error .badRequest
    | _, _ => .error .badRequest

def consentReplyResponse (config : Config) (request : Str) (state : State) :
    State × EcfResponse :=
  match parseConsentReply config request with
  | .error response => (state, response)
  | .ok (gatingId, consent) =>
    match state.pendingList.first fun elem => elem.gatingId = gatingId with
    | some i =>
      ({ state with
         pendingList := state.pendingList.set i { state.pendingList.get i with consent } }, .ok)
    | none => (state, .notFound)

def parseConsentCancel (config : Config) (request : Str) : Except EcfResponse (Int × Str) :=
  match unmarshalMap request with
  | none => .error .badRequest
  | some requestMap =>
    match getStr requestMap "messageId" with
    | some messageId =>
      if !verifyEcfHmac config "consent-cancel" messageId []
          ((getStr requestMap "hmac").getD []) then .error .unauthorized
      else
        match atoi messageId with
        | some gatingId => .ok (gatingId, messageId)
        | none => .error .badRequest
    | none => .error .badRequest

/-- The last component goes on the cancellation channel of the core. -/
def consentCancelResponse (config : Config) (request : Str) (state : State) :
    State × EcfResponse × Option Str :=
  match parseConsentCancel config request with
  | .error response => (state, response, none)
  | .ok (gatingId, messageId) =>
    match state.pendingList.first fun elem => elem.gatingId = gatingId with
    | some i => (removeFromPendingList i state, .ok, none)
    | none =>
      match state.activeList.first fun elem => elem.gatingId = gatingId with
      | some i => (removeFromActiveList i state, .ok, some messageId)
      | none => (state, .notFound, none)

end Vissr.AtServer
