import Vissr.Transport.Routing
import Vissr.Channel
import Vissr.Run

/-! The sessions of HTTP clients and the hub (`httpMgr/httpMgr.go`), all on `HttpClientChan[0]`. -/

namespace Vissr.Transport

open Json List Option

/-- What that leaves of a longer character is read as U+FFFD. -/
def dropLastByte (s : Str) : Str :=
  s.dropLast ++ replicate ((s.getLast?.map fun c => c.utf8Size - 1).getD 0) '\uFFFD'

/-- A response without its `RouterId`, and the client; `none` is a panic. -/
def removeInternalData (response : Str) : Option (Str × Int) :=
  match indexOf "RouterId" response with
  | none | some 0 => none
  | some (routerIdStart + 1) =>
    let clientIdStart :=
      match index '?' (response.drop routerIdStart) with
      | some i => i + 1 + routerIdStart
      | none => routerIdStart
    let clientIdStop :=
      match index '"' (response.drop clientIdStart) with
      | some i => clientIdStart + i
      | none => clientIdStart
    let clientId := atoiClamped ((response.drop clientIdStart).take (clientIdStop - clientIdStart))
    let routerIdStop :=
      match index ',' (response.drop clientIdStop) with
      | some i => i + 1 + clientIdStop
      | none => clientIdStop
    some (dropLastByte (response.take (routerIdStart + 1)) ++ response.drop routerIdStop, clientId)

/-- A text, and the session whose request it is or answers. -/
structure Owned where
  owner : Nat
  text : Str

inductive Taken where
  | request (message : Owned)
  | response (message : Owned)

/-- At the send, at the receive, or done with what it took. -/
inductive Phase where
  | sending
  | waiting
  | done (taken : Taken)

def Phase.isDone : Phase → Bool
  | .done _ => true
  | _ => false

structure HttpSession where
  text : Str
  phase : Phase

/-- At its select, or at a send to the core or to the clients. -/
inductive Hub where
  | selecting
  | submitting (message : Owned)
  | delivering (message : Owned)

structure HttpMgr where
  mgrId : Int
  /-- the error that a schema validator reports, if any -/
  jsonSchemaValidate : Str → Str

structure HttpSystem where
  sessions : List HttpSession := []
  hub : Hub := .selecting
  requestChan : Channel Owned pipelineBuf := {}
  /-- the requests the core has in hand -/
  outstanding : List Owned := []
  responseChan : Channel Owned pipelineBuf := {}
  /-- the requests to subscribe that the core has received -/
  subscribed : List Owned := []
  errorResponseMap : Map Value := []

inductive HttpEvent where
  /-- a client opens a session -/
  | arrive (text : Str)
  /-- the hub receives from a session -/
  | handIn (i : Nat) (rfcTime : Str)
  /-- a session receives from another one -/
  | cross (i j : Nat)
  | submit
  | coreReceive
  /-- the core answers, or drops the answer when there is no room -/
  | coreAnswer (k : Nat) (text : Str)
  /-- the core has a notification for a subscription, as often as it likes -/
  | coreNotify (k : Nat) (text : Str)
  | hubReceive
  /-- a session receives from the hub -/
  | deliver (j : Nat)
deriving DecidableEq

variable (mgr : HttpMgr)

def handleHttpClientRequest (rfcTime : Str) (request : Owned) (errorResponseMap : Map Value) :
    Hub × Map Value :=
  let validationError := mgr.jsonSchemaValidate request.text
  if validationError ≠ [] then
    let errorResponseMap :=
      setErrorResponse rfcTime (mapRequest request.text).1 errorResponseMap 0 validationError
    (.delivering ⟨request.owner, finalizeMessage errorResponseMap⟩, errorResponseMap)
  else
    match withRoutingInfo request.text mgr.mgrId 0 with
    | some text => (.submitting ⟨request.owner, text⟩, errorResponseMap)
    | none => (.selecting, errorResponseMap)

/-- There is one channel for all clients. -/
def handleHttpTransportResponse (response : Owned) : Option Hub :=
  match removeInternalData response.text with
  | some (trimmedResponse, clientId) =>
    if clientId = 0 then some (.delivering ⟨response.owner, trimmedResponse⟩) else none
  | none => none

/-- What the core takes for a subscription. -/
def asksToSubscribe (text : Str) : Bool :=
  getStr (mapRequest text).1 "action" = some "subscribe".toList

def setPhase (i : Nat) (phase : Phase) (sessions : List HttpSession) : List HttpSession :=
  sessions.modify i fun session => { session with phase }

variable (s : HttpSystem)

def HttpSystem.step : HttpEvent → Option HttpSystem
  | .arrive text => some { s with sessions := s.sessions ++ [⟨text, .sending⟩] }
  | .handIn i rfcTime =>
    match s.hub, s.sessions[i]? with
    | .selecting, some ⟨text, .sending⟩ =>
      let handled := handleHttpClientRequest mgr rfcTime ⟨i, text⟩ s.errorResponseMap
      some { s with
        sessions := setPhase i .waiting s.sessions
        hub := handled.1
        errorResponseMap := handled.2 }
    | _, _ => none
  | .cross i j =>
    match s.sessions[i]?, s.sessions[j]? with
    | some ⟨text, .sending⟩, some ⟨_, .waiting⟩ =>
      some { s with
        sessions := setPhase j (.done (.request ⟨i, text⟩)) (setPhase i .waiting s.sessions) }
    | _, _ => none
  | .submit =>
    match s.hub with
    | .submitting message =>
      (s.requestChan.send message).map fun requestChan =>
        { s with hub := .selecting, requestChan }
    | _ => none
  | .coreReceive =>
    s.requestChan.receive.map fun received =>
      { s with
        requestChan := received.2
        outstanding := s.outstanding ++ [received.1]
        subscribed := s.subscribed ++ [received.1].filter fun request => asksToSubscribe request.text }
  | .coreAnswer k text =>
    (s.outstanding[k]?).map fun request =>
      { s with
        outstanding := s.outstanding.eraseIdx k
        responseChan := (s.responseChan.send ⟨request.owner, text⟩).getD s.responseChan }
  | .coreNotify k text =>
    (s.subscribed[k]?).map fun request =>
      { s with responseChan := (s.responseChan.send ⟨request.owner, text⟩).getD s.responseChan }
  | .hubReceive =>
    match s.hub, s.responseChan.receive with
    | .selecting, some (response, responseChan) =>
      (handleHttpTransportResponse response).map fun hub => { s with hub, responseChan }
    | _, _ => none
  | .deliver j =>
    match s.hub, s.sessions[j]? with
    | .delivering message, some ⟨_, .waiting⟩ =>
      some { s with
        sessions := setPhase j (.done (.response message)) s.sessions
        hub := .selecting }
    | _, _ => none

def httpMachine : Machine HttpSystem HttpEvent Unit where
  init s := s = {}
  step s event := (s.step mgr event).map fun after => (after, ())

/-- Every session that is done took the response to its own request. -/
def OwnResponses : Prop :=
  ∀ (i : Nat) (session : HttpSession) (taken : Taken), s.sessions[i]? = some session →
    session.phase = .done taken → ∃ text, taken = .response ⟨i, text⟩

def HttpEvent.opens : HttpEvent → Bool
  | .arrive _ => true
  | _ => false

/-- A session is opened only when all earlier ones are done. -/
def NoOverlap (event : HttpEvent) : Prop :=
  event.opens → ∀ session ∈ s.sessions, session.phase.isDone = true

/-- Sessions do not overlap, and no request to subscribe is received. -/
def OneAtATime (event : HttpEvent) : Prop :=
  NoOverlap s event ∧ (event = .coreReceive →
    ∀ request ∈ s.requestChan.items.head?, asksToSubscribe request.text = false)

variable (event : HttpEvent)

instance : Decidable (NoOverlap s event) := inferInstanceAs (Decidable (_ → _))

instance : Decidable (OneAtATime s event) := inferInstanceAs (Decidable (_ ∧ _))

def Hub.carries : Hub → List Nat
  | .selecting => []
  | .submitting message => [message.owner]
  | .delivering message => [message.owner]

def traffic : List Nat :=
  s.hub.carries ++ s.requestChan.items.map Owned.owner ++ s.outstanding.map Owned.owner ++
    s.responseChan.items.map Owned.owner

/-- A step that only moves messages on, or loses them. -/
structure Passed (before after : HttpSystem) : Prop where
  sessions : after.sessions = before.sessions
  subscribed : after.subscribed = before.subscribed
  traffic : traffic after <+~ traffic before

variable {mgr} {s s' : HttpSystem}

theorem submit_passed (taken : s.step mgr .submit = some s') : Passed s s' := by
  simp only [HttpSystem.step] at taken
  split at taken
  · next message hub =>
    rcases map_eq_some_iff.mp taken with ⟨requestChan, sent, rfl⟩
    have items := Channel.items_of_send sent
    refine ⟨rfl, rfl, subperm_iff_count.mpr ?_⟩
    intro owner
    simp only [traffic, hub, Hub.carries, items, map_append, map_cons, map_nil, count_append,
      count_nil]
    omega
  · cases taken

theorem coreReceive_passed (single : OneAtATime s .coreReceive)
    (taken : s.step mgr .coreReceive = some s') : Passed s s' := by
  rcases map_eq_some_iff.mp taken with ⟨⟨message, requestChan⟩, received, rfl⟩
  have items := Channel.items_of_receive received
  have plain := single.2 rfl message (by rw [items]; rfl)
  refine ⟨rfl, by simp [plain], subperm_iff_count.mpr ?_⟩
  intro owner
  simp only [traffic, items, map_append, map_cons, map_nil, count_append, count_cons, count_nil]
  omega

theorem coreAnswer_passed {k : Nat} {text : Str}
    (taken : s.step mgr (.coreAnswer k text) = some s') : Passed s s' := by
  rcases map_eq_some_iff.mp taken with ⟨request, there, rfl⟩
  rcases List.getElem?_eq_some_iff.mp there with ⟨inside, rfl⟩
  refine ⟨rfl, rfl, subperm_iff_count.mpr ?_⟩
  intro owner
  have erased := ((getElem_cons_eraseIdx_perm inside).map Owned.owner).count_eq owner
  rw [map_cons, count_cons] at erased
  cases sent : s.responseChan.send ⟨(s.outstanding[k]).owner, text⟩ with
  | none =>
    simp only [traffic, getD_none, count_append]
    omega
  | some =>
    simp only [traffic, getD_some, Channel.items_of_send sent, map_append, map_cons, map_nil,
      count_append, count_cons, count_nil]
    omega

theorem hubReceive_passed (taken : s.step mgr .hubReceive = some s') : Passed s s' := by
  simp only [HttpSystem.step] at taken
  split at taken
  · next response responseChan hub received =>
    rcases map_eq_some_iff.mp taken with ⟨after, handled, rfl⟩
    have items := Channel.items_of_receive received
    have idle : s.hub.carries = [] := by rw [hub]; rfl
    have carries : after.carries = [response.owner] := by
      unfold handleHttpTransportResponse at handled
      split at handled
      · split_ifs at handled
        cases handled
        rfl
      · cases handled
    refine ⟨rfl, rfl, subperm_iff_count.mpr ?_⟩
    intro owner
    simp only [traffic, carries, idle, items, map_cons, count_append, count_cons, count_nil]
    omega
  · cases taken

/-- Only the last session is not done, at most one message is on its way, for it, and the core has
no subscription. -/
structure Serial (s : HttpSystem) : Prop where
  own : OwnResponses s
  earlier : ∀ (i : Nat) (session : HttpSession), s.sessions[i]? = some session →
    session.phase.isDone = false → i + 1 = s.sessions.length
  few : (traffic s).length ≤ 1
  owned : ∀ owner ∈ traffic s, ∃ session, s.sessions[owner]? = some session ∧
    session.phase = .waiting
  silent : s.subscribed = []

theorem serial_start : Serial {} where
  own := by
    intro i session taken there
    cases there
  earlier := by
    intro i session there
    cases there
  few := Nat.zero_le 1
  owned := by
    intro owner mem
    cases mem
  silent := rfl

theorem Serial.passed (serial : Serial s) (passed : Passed s s') : Serial s' where
  own := by
    intro i session taken there
    rw [passed.sessions] at there
    exact serial.own i session taken there
  earlier := by
    rw [passed.sessions]
    exact serial.earlier
  few := passed.traffic.length_le.trans serial.few
  owned := by
    intro owner mem
    rw [passed.sessions]
    exact serial.owned owner (passed.traffic.subset mem)
  silent := passed.subscribed.trans serial.silent

variable {i : Nat} {text : Str}

theorem getElem?_setPhase (i j : Nat) (phase : Phase) (sessions : List HttpSession) :
    (setPhase i phase sessions)[j]? =
      (sessions[j]?).map fun session => if i = j then { session with phase } else session := by
  unfold setPhase
  rw [getElem?_modify]
  split_ifs <;> simp

theorem Serial.same (serial : Serial s) {j : Nat} {session session' : HttpSession}
    (here : s.sessions[i]? = some session) (there : s.sessions[j]? = some session')
    (open_ : session.phase.isDone = false) (open' : session'.phase.isDone = false) : i = j := by
  have last := serial.earlier i session here open_
  have last' := serial.earlier j session' there open'
  omega

theorem length_setPhase (i : Nat) (phase : Phase) (sessions : List HttpSession) :
    (setPhase i phase sessions).length = sessions.length := length_modify _ _ _

theorem Serial.move (serial : Serial s) {phase next : Phase}
    (here : s.sessions[i]? = some ⟨text, phase⟩) (open_ : phase.isDone = false)
    (sessions : s'.sessions = setPhase i next s.sessions)
    (own : ∀ taken, next = .done taken → ∃ text, taken = .response ⟨i, text⟩)
    (few : (traffic s').length ≤ 1) (owned : ∀ owner ∈ traffic s', owner = i ∧ next = .waiting)
    (silent : s'.subscribed = s.subscribed) :
    Serial s' where
  own := by
    intro j session taken there done
    rw [sessions, getElem?_setPhase] at there
    obtain ⟨before, found, same⟩ := map_eq_some_iff.mp there
    split_ifs at same with moved
    · cases same
      subst moved
      exact own taken done
    · cases same
      exact serial.own j session taken found done
  earlier := by
    intro j session there unfinished
    rw [sessions, getElem?_setPhase] at there
    obtain ⟨before, found, same⟩ := map_eq_some_iff.mp there
    rw [sessions, length_setPhase]
    split_ifs at same with moved
    · subst moved
      exact serial.earlier i _ here open_
    · cases same
      exact serial.earlier j session found unfinished
  few := few
  owned := by
    intro owner mem
    obtain ⟨rfl, rfl⟩ := owned owner mem
    refine ⟨⟨text, .waiting⟩, ?_, rfl⟩
    rw [sessions, getElem?_setPhase, here]
    simp
  silent := silent.trans serial.silent

theorem getElem?_arrive {sessions : List HttpSession} {session : HttpSession}
    (there : (sessions ++ [⟨text, .sending⟩])[i]? = some session) :
    sessions[i]? = some session ∨ i = sessions.length ∧ session = ⟨text, .sending⟩ := by
  rw [getElem?_append] at there
  split_ifs at there with inside
  · exact .inl there
  · rw [getElem?_singleton] at there
    split_ifs at there with last
    cases there
    exact .inr ⟨by omega, rfl⟩

theorem Serial.arrive (serial : Serial s)
    (finished : ∀ session ∈ s.sessions, session.phase.isDone = true) :
    Serial { s with sessions := s.sessions ++ [⟨text, .sending⟩] } where
  own := by
    intro i session taken there done
    obtain before | ⟨-, rfl⟩ := getElem?_arrive there
    · exact serial.own i session taken before done
    · cases done
  earlier := by
    intro i session there unfinished
    obtain before | ⟨rfl, -⟩ := getElem?_arrive there
    · rw [finished session (mem_of_getElem? before)] at unfinished
      cases unfinished
    · simp
  few := serial.few
  owned := by
    intro owner mem
    obtain ⟨session, there, waits⟩ := serial.owned owner mem
    have done := finished session (mem_of_getElem? there)
    rw [waits] at done
    cases done
  silent := serial.silent

theorem Serial.idle (serial : Serial s) (here : s.sessions[i]? = some ⟨text, .sending⟩) :
    traffic s = [] := by
  apply eq_nil_iff_forall_not_mem.mpr
  intro owner mem
  obtain ⟨session, there, waits⟩ := serial.owned owner mem
  have same := serial.same here there rfl (by rw [waits]; rfl)
  subst same
  rw [here] at there
  cases there
  cases waits

theorem handleHttpClientRequest_carries (mgr : HttpMgr) (rfcTime : Str) (request : Owned)
    (errorResponseMap : Map Value) :
    (handleHttpClientRequest mgr rfcTime request errorResponseMap).1.carries.length ≤ 1 ∧
      ∀ owner ∈ (handleHttpClientRequest mgr rfcTime request errorResponseMap).1.carries,
        owner = request.owner := by
  unfold handleHttpClientRequest
  dsimp only
  split_ifs
  · simp [Hub.carries]
  · split <;> simp [Hub.carries]

theorem traffic_eq_nil_iff : traffic s = [] ↔ s.hub.carries = [] ∧ s.requestChan.items = [] ∧
    s.outstanding = [] ∧ s.responseChan.items = [] := by
  simp [traffic]

theorem Serial.handIn (serial : Serial s) {rfcTime : Str}
    (taken : s.step mgr (.handIn i rfcTime) = some s') : Serial s' := by
  simp only [HttpSystem.step] at taken
  split at taken
  · next text hub here =>
    cases taken
    obtain ⟨-, requests, outstanding, responses⟩ := traffic_eq_nil_iff.mp (serial.idle here)
    have carries := handleHttpClientRequest_carries mgr rfcTime ⟨i, text⟩ s.errorResponseMap
    apply serial.move here rfl rfl
    · intro taken done
      cases done
    · simpa [traffic, requests, outstanding, responses] using carries.1
    · intro owner mem
      simp only [traffic, requests, outstanding, responses, map_nil, append_nil]
        at mem
      exact ⟨carries.2 owner mem, rfl⟩
    · rfl
  · cases taken

theorem Serial.deliver (serial : Serial s) {j : Nat}
    (taken : s.step mgr (.deliver j) = some s') : Serial s' := by
  simp only [HttpSystem.step] at taken
  split at taken
  · next message text hub here =>
    cases taken
    have carried : message.owner ∈ traffic s := by
      simp [traffic, hub, Hub.carries]
    obtain ⟨session, there, waits⟩ := serial.owned _ carried
    have same : message.owner = j := serial.same there here (by rw [waits]; rfl) rfl
    have few := serial.few
    simp only [traffic, hub, Hub.carries, length_append, length_map, length_singleton] at few
    apply serial.move here rfl rfl
    · intro taken done
      cases done
      exact ⟨message.text, by rw [← same]⟩
    · simp only [traffic, Hub.carries, length_append, length_map, length_nil]
      omega
    · intro owner mem
      have gone : traffic { s with
          sessions := setPhase j (.done (.response message)) s.sessions
          hub := .selecting } = [] := by
        apply eq_nil_of_length_eq_zero
        simp only [traffic, Hub.carries, length_append, length_map, length_nil]
        omega
      rw [gone] at mem
      cases mem
    · rfl
  · cases taken

theorem Serial.step (serial : Serial s) {event : HttpEvent} (single : OneAtATime s event)
    (taken : s.step mgr event = some s') : Serial s' := by
  cases event with
  | arrive =>
    cases taken
    exact serial.arrive (single.1 rfl)
  | handIn => exact serial.handIn taken
  | cross =>
    simp only [HttpSystem.step] at taken
    split at taken
    · next here there =>
      have same := serial.same here there rfl rfl
      subst same
      rw [here] at there
      cases there
    · cases taken
  | submit => exact serial.passed (submit_passed taken)
  | coreReceive => exact serial.passed (coreReceive_passed single taken)
  | coreAnswer => exact serial.passed (coreAnswer_passed taken)
  | coreNotify =>
    simp [HttpSystem.step, serial.silent] at taken
  | hubReceive => exact serial.passed (hubReceive_passed taken)
  | deliver => exact serial.deliver taken

/-- The request of a GET: a query is pasted into its text. -/
def addKeyValue (message key value : Str) : Str :=
  match value with
  | [] => message
  | c :: _ =>
    let quote : Str := if c = '\x7b' then [] else "\""
    dropLastByte message ++ ", \"" ++ key ++ "\":" ++ quote ++ value ++ quote ++ "\x7d"

def sampleMgr : HttpMgr := ⟨0, fun _ => []⟩

def getText (path : Str) : Str :=
  "\x7b\"action\":\"get\",\"path\":\"" ++ path ++ "\",\"requestId\":\"1\"\x7d"

def responseText : Str := "\x7b\"RouterId\":\"0?0\",\"action\":\"get\",\"data\":\"1\"\x7d"

def subscribeText : Str := addKeyValue (getText "A") "filter"
  "\x7b\"variant\":\"timebased\",\"parameter\":\x7b\"period\":\"100\"\x7d\x7d,\"action\":\"subscribe\""

def takenBy (i : Nat) (s : HttpSystem) : Option (Bool × Nat) :=
  match s.sessions[i]? with
  | some ⟨_, .done (.request message)⟩ => some (true, message.owner)
  | some ⟨_, .done (.response message)⟩ => some (false, message.owner)
  | _ => none

theorem not_own_of_takenBy {taken : Bool × Nat} (found : takenBy i s = some taken)
    (other : taken ≠ (false, i)) : ¬ OwnResponses s := by
  intro own
  unfold takenBy at found
  split at found
  · next there =>
    obtain ⟨text, same⟩ := own i _ _ there rfl
    cases same
  · next there =>
    obtain ⟨text, same⟩ := own i _ _ there rfl
    cases same
    cases found
    exact other rfl
  · cases found

end Vissr.Transport
