import Vissr.AtServer.Registration
import Vissr.Process

/-! The connections of the consent framework (ECF), and the channel that the token server waits at. -/

namespace Vissr.AtServer

open Json Option List Bool Act

inductive EcfReceiver where
  | reading
  /-- at the send of a request on `ecfReceiveChan` -/
  | handing (request : Str)
  /-- at the send of the termination message on `ecfSendChan` -/
  | killing
  | ended
  deriving DecidableEq

structure Connection where
  live : Bool := true
  /-- the handler is at the send of `internal-ecfAvailable` -/
  announcing : Bool := true
  receiver : EcfReceiver := .reading
  /-- the loop of the sender runs -/
  sending : Bool := true
  deriving DecidableEq

/-- To the framework, or to the core or a client. -/
inductive Posted where
  | ecfSendChan (message : Str)
  | other
deriving DecidableEq

def posted (event : Event) : Output → List Posted
  | .atRequest _ ask => (ask.map Posted.ecfSendChan).toList ++ [.other]
  | .ecf response cancel => (cancel.map fun _ => Posted.other).toList ++ [.ecfSendChan response]
  | .purge cancel => (cancel.map fun _ => Posted.other).toList
  | .unknown =>
    match event with
    | .ecf _ => [.ecfSendChan "\x7b\"action\":\"unknown\",\"status\":\"401-Bad request\"\x7d"]
    | _ => [.other]
  | .silent => []
  | _ => [.other]

variable (config : Config)

def handleMessage (state : State) (input : Input) : Act Posted State :=
  match step config state input with
  | some (after, output) => ⟨posted input.event output, some after⟩
  | none => halt

structure EcfSystem where
  connections : List Connection := []
  ats : Process State Posted

inductive EcfEvent where
  | connect
  /-- the handler sends `internal-ecfAvailable` -/
  | announce (i : Nat) (now : Time)
  | read (i : Nat) (request : Str)
  | hand (i : Nat) (now : Time)
  | lose (i : Nat)
  | readError (i : Nat)
  /-- the termination message of a connection is taken by any sender -/
  | kill (i j : Nat)
  | send (j : Nat)
  | serve (input : Input)
  | deleteJti (jti : Str)
  /-- the token server sends to the core or a client -/
  | sent

variable (s : EcfSystem)

def EcfSystem.act (i : Nat) (f : Connection → Option Connection) :
    Option EcfSystem :=
  (s.connections[i]?).bind fun c => (f c).map fun c =>
    { s with connections := s.connections.set i c }

def EcfSystem.select (input : Input) : Option EcfSystem :=
  if s.ats.resting then some { s with ats := s.ats.handle (handleMessage config s.ats.state input) }
  else none

/-- A goroutine that ends closes the connection; the sender goes on. -/
def EcfSystem.step : EcfEvent → Option EcfSystem
  | .connect => some { s with connections := s.connections ++ [{}] }
  | .announce i now =>
    (s.act i fun c => if c.announcing then some { c with announcing := false } else none).bind
      fun s => s.select config ⟨now, .ecf "internal-ecfAvailable"⟩
  | .read i request => s.act i fun c =>
    if c.receiver = .reading ∧ c.live then some { c with receiver := .handing request } else none
  | .hand i now =>
    match (s.connections[i]?).map Connection.receiver with
    | some (.handing request) =>
      (s.act i fun c => some { c with receiver := .reading }).bind
        fun s => s.select config ⟨now, .ecf request⟩
    | _ => none
  | .lose i => s.act i fun c => some { c with live := false }
  | .readError i => s.act i fun c =>
    if c.receiver = .reading ∧ !c.live then some { c with receiver := .killing } else none
  | .kill i j =>
    (s.act i fun c =>
      if c.receiver = .killing then some { c with receiver := .ended, live := false }
      else none).bind fun s => s.act j fun c =>
        if c.sending then some { c with sending := false, live := false } else none
  | .send j =>
    match s.ats.pending with
    | .ecfSendChan _ :: _ =>
      (s.act j fun c => if c.sending then some c else none).map fun s =>
        { s with ats := s.ats.advance }
    | _ => none
  | .serve input =>
    match input.event with
    | .ecf _ => none
    | .deleteJti _ => none
    | _ => s.select config input
  | .deleteJti jti =>
    some { s with
      ats := { s.ats with
        state := { s.ats.state with
          jtiCache := s.ats.state.jtiCache.filter (· ≠ jti) } } }
  | .sent =>
    match s.ats.pending with
    | .other :: _ => some { s with ats := s.ats.advance }
    | _ => none

def ecfMachine : Machine EcfSystem EcfEvent Unit where
  init s := s.connections = [] ∧ ∃ state, Initial state ∧ s.ats = { state }
  step s event := (s.step config event).map fun after => (after, ())

def Posted.IsEcf : Posted → Prop
  | .ecfSendChan _ => True
  | .other => False

instance : DecidablePred Posted.IsEcf
  | .ecfSendChan _ => .isTrue trivial
  | .other => .isFalse id

def Connection.attends (c : Connection) : Bool := c.live && c.sending

def AttendedBesides (excluded : List Nat) (connections : List Connection) : Prop :=
  ∃ k c, k ∉ excluded ∧ connections[k]? = some c ∧ c.attends = true

/-- If the token server waits at `ecfSendChan`, somebody can receive. -/
def Attended : Prop := s.ats.WaitsAt Posted.IsEcf → AttendedBesides [] s.connections

/-- A message first leads to one for the framework. -/
def NeedsEcf (state : State) (input : Input) : Prop :=
  match input.event with
  | .client request _ => contains request "at-request" = true ∧ ∃ payload,
      decodeAtGenPayload config request = .ok payload ∧
      (validateRequest config input.now payload state).2 = none ∧
      checkifConsent config.himForest config.pList payload.purpose = some true ∧
      state.ecfAvailable = true
  | .ecf message => message ≠ "internal-ecfAvailable" ∧ contains message "status" = false ∧
      (contains message "consent-reply" = true ∨ contains message "consent-cancel" = false ∨
        (consentCancelResponse config message state).2.2 = none)
  | _ => False

/-- Where something is to be sent to the framework, a live connection is there and stays. -/
def StaysAttended : EcfEvent → Prop
  | .serve input => NeedsEcf config s.ats.state input → AttendedBesides [] s.connections
  | .hand i now => ∀ c request, s.connections[i]? = some c → c.receiver = .handing request →
      NeedsEcf config s.ats.state ⟨now, .ecf request⟩ → AttendedBesides [] s.connections
  | .sent => (∃ e ∈ s.ats.pending.tail.head?, e.IsEcf) → AttendedBesides [] s.connections
  | .lose i => s.ats.WaitsAt Posted.IsEcf → AttendedBesides [i] s.connections
  | .kill i j => s.ats.WaitsAt Posted.IsEcf → AttendedBesides [i, j] s.connections
  | _ => True

variable {config} {state : State} {input : Input} {now : Time} {uuid : Option Str} {request : Str}

theorem accessTokenResponse_asks :
    (∃ after response message, accessTokenResponse config now uuid request state =
      some (after, response, some message)) ↔ ∃ payload,
      decodeAtGenPayload config request = .ok payload ∧
      (validateRequest config now payload state).2 = none ∧
      checkifConsent config.himForest config.pList payload.purpose = some true ∧
      state.ecfAvailable = true := by
  constructor
  · rintro ⟨after, response, message, answered⟩
    obtain ⟨-, -, none⟩ | ⟨payload, requiresConsent, cache, decoded, valid, checked, granted⟩ :=
      accessTokenResponse_cases config answered
    · cases none
    · unfold grant at granted
      split_ifs at granted with requires available
      · exact ⟨payload, decoded, valid, requires ▸ checked, available⟩
      · cases granted
      · cases granted
  · rintro ⟨payload, decoded, valid, checked, available⟩
    obtain ⟨cache, answered⟩ := accessTokenResponse_granted uuid decoded valid checked
    have reached : (newGatingId { state with jtiCache := cache }).ecfAvailable = true := available
    rw [grant, if_pos rfl, if_pos reached] at answered
    exact ⟨_, _, _, answered⟩

theorem client_needsEcf :
    (∃ e ∈ (handleMessage config state ⟨now, .client request uuid⟩).effects.head?, e.IsEcf) ↔
      NeedsEcf config state ⟨now, .client request uuid⟩ := by
  simp only [handleMessage, step, generateClientResponse, NeedsEcf]
  split_ifs with asked inquiry
  · rw [← @accessTokenResponse_asks config state now uuid request, and_iff_right asked]
    cases answered : accessTokenResponse config now uuid request state with
    | none => simp [halt]
    | some result =>
      obtain ⟨after, response, ask⟩ := result
      cases ask <;> simp [posted, Posted.IsEcf]
  · exact iff_of_false (by simp [posted, Posted.IsEcf]) fun needs => asked needs.1
  · exact iff_of_false (by simp [posted, Posted.IsEcf]) fun needs => asked needs.1

theorem ecf_needsEcf {message : Str} :
    (∃ e ∈ (handleMessage config state ⟨now, .ecf message⟩).effects.head?, e.IsEcf) ↔
      NeedsEcf config state ⟨now, .ecf message⟩ := by
  simp only [handleMessage, step, ecfMessage, generateEcfResponse, NeedsEcf]
  split_ifs with available status reply cancel
  · exact iff_of_false (by simp [posted]) fun needs => needs.1 available
  · exact iff_of_false (by simp [posted]) fun needs => eq_false_iff.mp needs.2.1 status
  · exact iff_of_true ⟨_, rfl, trivial⟩ ⟨available, eq_false_iff.mpr status, .inl reply⟩
  · cases cancelled : (consentCancelResponse config message state).2.2 with
    | none =>
      exact iff_of_true ⟨_, rfl, trivial⟩
        ⟨available, eq_false_iff.mpr status, .inr (.inr rfl)⟩
    | some =>
      refine iff_of_false (by simp [posted, Posted.IsEcf]) ?_
      rintro ⟨-, -, isReply | noCancel | none⟩
      · exact reply isReply
      · exact eq_false_iff.mp noCancel cancel
      · cases none
  · exact iff_of_true ⟨_, rfl, trivial⟩
      ⟨available, eq_false_iff.mpr status, .inr (.inl (eq_false_iff.mpr cancel))⟩

theorem handleMessage_needsEcf : (∃ e ∈ (handleMessage config state input).effects.head?, e.IsEcf) ↔
      NeedsEcf config state input := by
  obtain ⟨now, event⟩ := input
  cases event with
  | client => exact client_needsEcf
  | ecf => exact ecf_needsEcf
  | core request order =>
    simp only [handleMessage, step, NeedsEcf, iff_false]
    cases generateParentResponse config now order request state <;>
      simp [posted, halt, Posted.IsEcf]
  | expiryTicker =>
    simp only [handleMessage, step, NeedsEcf, iff_false]
    cases (purgeLists now state).2 <;> simp [posted, Posted.IsEcf]
  | deleteJti => simp [handleMessage, step, NeedsEcf, posted]

variable {s s' : EcfSystem} {i : Nat} {f : Connection → Option Connection}
  {connections : List Connection} {excluded : List Nat}

theorem EcfSystem.act_some (acted : s.act i f = some s') : ∃ c c', s.connections[i]? = some c ∧
    f c = some c' ∧ s' = { s with connections := s.connections.set i c' } := by
  obtain ⟨c, here, rest⟩ := bind_eq_some_iff.mp acted
  obtain ⟨c', next, rfl⟩ := map_eq_some_iff.mp rest
  exact ⟨c, c', here, next, rfl⟩

theorem besides_set_same {c c' : Connection} (here : connections[i]? = some c)
    (same : c'.attends = c.attends) :
    AttendedBesides excluded (connections.set i c') ↔ AttendedBesides excluded connections := by
  have inside := (List.getElem?_eq_some_iff.mp here).1
  apply exists_congr
  intro k
  by_cases there : i = k
  · subst there
    simp only [getElem?_set_self inside, here, some.injEq, exists_and_left, exists_eq_left', same]
  · simp only [getElem?_set_ne there]

theorem besides_set_lost {c c' : Connection} (here : connections[i]? = some c)
    (lost : c'.attends = false) : AttendedBesides excluded (connections.set i c') ↔
      AttendedBesides (i :: excluded) connections := by
  have inside := (List.getElem?_eq_some_iff.mp here).1
  apply exists_congr
  intro k
  by_cases there : i = k
  · subst there
    simp [inside, lost]
  · simp [getElem?_set_ne there, Ne.symm there]

theorem besides_act (acted : s.act i f = some s')
    (same : ∀ c c', f c = some c' → c'.attends = c.attends) : s'.ats = s.ats ∧
      (AttendedBesides excluded s'.connections ↔ AttendedBesides excluded s.connections) := by
  obtain ⟨c, c', here, next, rfl⟩ := EcfSystem.act_some acted
  exact ⟨rfl, besides_set_same here (same c c' next)⟩

theorem Attended.act (attended : Attended s) (acted : s.act i f = some s')
    (same : ∀ c c', f c = some c' → c'.attends = c.attends) : Attended s' := by
  obtain ⟨ats, besides⟩ := @besides_act s s' i f [] acted same
  intro waits
  rw [ats] at waits
  exact besides.mpr (attended waits)

theorem select_some (selected : s.select config input = some s') :
    s' = { s with ats := s.ats.handle (handleMessage config s.ats.state input) } := by
  rw [EcfSystem.select] at selected
  split_ifs at selected
  exact (some.inj selected).symm

theorem attended_select (selected : s.select config input = some s') :
    Attended s' ↔ (NeedsEcf config s.ats.state input → AttendedBesides [] s.connections) := by
  rw [select_some selected, ← handleMessage_needsEcf]
  rfl

theorem attended_step {event : EcfEvent} (attended : Attended s)
    (taken : s.step config event = some s') : Attended s' ↔ StaysAttended config s event := by
  cases event with
  | connect =>
    cases taken
    refine iff_of_true ?_ trivial
    intro waits
    obtain ⟨k, c, out, here, attends⟩ := attended waits
    exact ⟨k, c, out, List.getElem?_append_left (List.getElem?_eq_some_iff.mp here).1 ▸ here,
      attends⟩
  | announce =>
    obtain ⟨t, acted, selected⟩ := bind_eq_some_iff.mp taken
    rw [attended_select selected]
    exact iff_of_true (fun needs => absurd rfl needs.1) trivial
  | read | readError =>
    refine iff_of_true (attended.act taken ?_) trivial
    intro c c' next
    split_ifs at next
    cases next
    rfl
  | hand i =>
    simp only [EcfSystem.step] at taken
    split at taken
    · next request handing =>
      obtain ⟨c, here, receiver⟩ := map_eq_some_iff.mp handing
      obtain ⟨t, acted, selected⟩ := bind_eq_some_iff.mp taken
      obtain ⟨ats, besides⟩ := @besides_act s t i _ [] acted (by rintro c c' ⟨⟩; rfl)
      rw [attended_select selected, ats, besides]
      constructor
      · intro kept d other same another
        rw [here] at same
        cases same
        rw [receiver] at another
        cases another
        exact kept
      · intro kept
        exact kept c request here receiver
    · cases taken
  | lose =>
    obtain ⟨c, c', here, next, rfl⟩ := EcfSystem.act_some taken
    cases next
    exact imp_congr_right fun _ => besides_set_lost here rfl
  | kill =>
    obtain ⟨t, first, second⟩ := bind_eq_some_iff.mp taken
    obtain ⟨c, c', here, next, rfl⟩ := EcfSystem.act_some first
    obtain ⟨d, d', there, last, rfl⟩ := EcfSystem.act_some second
    split_ifs at next last
    cases next
    cases last
    apply imp_congr_right
    intro _
    rw [besides_set_lost there rfl, besides_set_lost here rfl]
  | send j =>
    simp only [EcfSystem.step] at taken
    split at taken
    · next message rest pending =>
      obtain ⟨t, acted, rfl⟩ := map_eq_some_iff.mp taken
      obtain ⟨ats, besides⟩ := @besides_act s t j _ [] acted (by
        intro c c' next
        split_ifs at next
        rw [some.inj next])
      refine iff_of_true (fun _ => besides.mpr (attended ⟨.ecfSendChan message, ?_, trivial⟩))
        trivial
      rw [pending]
      rfl
    · cases taken
  | serve =>
    rw [EcfSystem.step] at taken
    split at taken
    · cases taken
    · cases taken
    · exact attended_select taken
  | deleteJti =>
    cases taken
    exact iff_of_true attended trivial
  | sent =>
    simp only [EcfSystem.step] at taken
    split at taken
    · cases taken
      rfl
    · cases taken

/-- The framework is there for the token server just in case a live connection is, and stays. -/
theorem ecf_attended_iff (config : Config) {history : History EcfSystem EcfEvent Unit}
    (run : Run (ecfMachine config) anyStep history s) : (∀ t ∈ history, Attended t.after) ↔
      ∀ t ∈ history, StaysAttended config t.before t.event := by
  refine run.forall_iff Attended ?_ ?_
  · rintro s ⟨-, state, -, fresh⟩ ⟨e, waiting, -⟩
    rw [fresh] at waiting
    cases waiting
  · intro t attended taken
    exact ⟨attended_step attended (step_of_taken taken), id⟩

def atRest : EcfSystem := { ats := { state := sampleState } }

theorem atRest_init : (ecfMachine sampleConfig).init atRest :=
  ⟨rfl, sampleState, sampleState_initial, rfl⟩

theorem ecf_attended_asked : ∃ history s,
    Run (ecfMachine sampleConfig) anyStep history s ∧ s.ats.pending = [.other] ∧
      ∀ t ∈ history, Attended t.after := by
  have start : Run (ecfMachine sampleConfig) anyStep [] atRest := .start _ atRest_init
  have connected := start.fire .connect rfl trivial
  have announced := connected.fire (.announce 0 ⟨1000, 0⟩) (by decide +kernel) trivial
  have served := announced.fire (.serve requestPosition) (by decide +kernel) trivial
  have sent := served.fire (.send 0) (by decide +kernel) trivial
  refine ⟨_, _, sent, by decide +kernel, (ecf_attended_iff sampleConfig sent).mpr ?_⟩
  refine forall_mem_cons.mpr ⟨trivial, forall_mem_cons.mpr ⟨fun _ => ?_,
    forall_mem_cons.mpr ⟨trivial, forall_mem_singleton.mpr trivial⟩⟩⟩
  refine ⟨0, { announcing := false }, not_mem_nil, ?_, rfl⟩
  decide +kernel

/-- The framework is gone when a client asks for a token that needs consent. -/
theorem dead_framework_waited_for : ∃ history s,
    Run (ecfMachine sampleConfig) anyStep history s ∧ ¬ ∀ t ∈ history, Attended t.after := by
  obtain ⟨history, s, run, checked⟩ := Run.of_exec (ecfMachine sampleConfig) atRest atRest_init
    [.connect, .announce 0 ⟨1000, 0⟩, .lose 0, .serve requestPosition]
    (fun history _ => ∃ t ∈ history, t.after.ats.WaitsAt Posted.IsEcf ∧
      ∀ c ∈ t.after.connections, c.attends = false)
    (by decide +kernel)
  obtain ⟨t, member, waits, none⟩ := checked
  refine ⟨history, s, run, ?_⟩
  intro attended
  obtain ⟨k, c, -, here, attends⟩ := attended t member waits
  cases attends.symm.trans (none c (mem_of_getElem? here))

end Vissr.AtServer
