import Vissr.AtServer.Validate
import Vissr.Run

/-! The main loop of the access token server as a machine. -/

namespace Vissr.AtServer

open Json

inductive Event where
  /-- a client request, with the random id for a token -/
  | client (request : Str) (uuid : Option Str)
  /-- a request of the core, with the order in which a map is walked over -/
  | core (request : Str) (order : MapOrder)
  | ecf (message : Str)
  | expiryTicker
  /-- the timer of a proof id ends -/
  | deleteJti (jti : Str)

structure Input where
  now : Time
  event : Event

inductive Output where
  | atRequest (response : AtResponse) (ask : Option Str)
  | atInquiry (response : InquiryResponse)
  | core (response : Str)
  | ecf (response : Str) (cancel : Option Str)
  | purge (cancel : Option Str)
  | unknown
  | silent
  deriving DecidableEq

def Output.issued : Output → Option Str
  | .atRequest (.issued token) _ => some token
  | .atInquiry (.issued token _) => some token
  | _ => none

variable (config : Config)

def generateClientResponse (now : Time) (input : Str) (uuid : Option Str) (state : State) :
    Option (State × Output) :=
  if contains input "at-request" then
    (accessTokenResponse config now uuid input state).map fun result =>
      (result.1, .atRequest result.2.1 result.2.2)
  else if contains input "at-inquiry" then
    let result := consentInquiryResponse config now uuid input state
    some (result.1, .atInquiry result.2)
  else some (state, .unknown)

def generateEcfResponse (input : Str) (state : State) : State × Output :=
  if contains input "consent-reply" then
    let result := consentReplyResponse config input state
    (result.1, .ecf (result.2.render "consent-reply") none)
  else if contains input "consent-cancel" then
    let result := consentCancelResponse config input state
    (result.1, .ecf (result.2.1.render "consent-cancel") result.2.2)
  else (state, .unknown)

/-- One that reports a status is not answered. -/
def ecfMessage (message : Str) (state : State) : State × Output :=
  if message = "internal-ecfAvailable" then ({ state with ecfAvailable := true }, .silent)
  else if contains message "status" then (state, .silent)
  else generateEcfResponse config message state

def step (state : State) (input : Input) : Option (State × Output) :=
  match input.event with
  | .client request uuid => generateClientResponse config input.now request uuid state
  | .core request order =>
    (generateParentResponse config input.now order request state).map fun response =>
      (state, .core response)
  | .ecf message => some (ecfMessage config message state)
  | .expiryTicker =>
    let result := purgeLists input.now state
    some (result.1, .purge (result.2.map itoa))
  | .deleteJti jti =>
    some ({ state with jtiCache := state.jtiCache.filter (· ≠ jti) }, .silent)

def Initial (state : State) : Prop :=
  state.pendingList = .replicate _ {} ∧ state.activeList = .replicate _ {} ∧
    666 ≤ state.gatingId ∧ state.gatingId < 9999 ∧ state.jtiCache = [] ∧
    state.ecfAvailable = false

def machine : Machine State Input Output := ⟨Initial, step config⟩

end Vissr.AtServer
