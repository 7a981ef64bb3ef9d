import Vissr.Core.AccessControl
import Vissr.Process

/-! The core and the access token server as processes over `atsChannel[0]` and `atsChannel[1]`. -/

namespace Vissr.Core

open Json AtServer Option

/-- To the core, to a client or to the consent framework. -/
inductive Sent where
  | answer (response : Str)
  | cancel (gatingId : Str)
  | other

def sentFor : Output → List Sent
  | .atRequest _ ask => if ask.isSome then [.other, .other] else [.other]
  | .atInquiry _ => [.other]
  | .core response => [.answer response]
  | .ecf _ cancel => (cancel.map Sent.cancel).toList ++ [.other]
  | .purge cancel => (cancel.map Sent.cancel).toList
  | .unknown => [.other]
  | .silent => []

def Effect.question : Effect → Option Str
  | .verifyToken token action paths validation _ => some (atsRequest token action paths validation)
  | .noScope tokenContext => some (contextRequest tokenContext)
  | _ => none

def Effect.goesOnWith (response : Str) : Effect → Bool
  | .verifyToken _ _ _ _ answer => readAnswer response = answer
  | _ => true

structure TokenSystem where
  core : Process Unit Effect := { state := () }
  /-- the question has been received, and the core waits for the answer -/
  asked : Bool := false
  ats : Process State Sent

/-- A request comes with what the core finds around it. -/
inductive TokenEvent where
  /-- a request from one of the transports -/
  | request (env : Env) (requestMap : Map Value)
  /-- a question goes over `atsChannel[0]` -/
  | ask (now : Time) (order : MapOrder)
  /-- the answer goes over `atsChannel[0]` -/
  | answer
  /-- a gating id goes over `atsChannel[1]` -/
  | cancel (env : Env)
  /-- the core sends to somebody else -/
  | proceed
  /-- a message, or the expiry ticker -/
  | serve (input : Input)
  /-- the timer of a proof id ends -/
  | deleteJti (jti : Str)
  /-- the token server sends to somebody else -/
  | sent

variable (config : Config)

def cancelRequest (gatingId : Str) : Map Value :=
  [("action", .str "internal-cancelsubscription"), ("gatingId", .str gatingId)]

def handleInput (state : State) (input : Input) : Act Sent State :=
  match AtServer.step config state input with
  | some (after, output) => ⟨sentFor output, some after⟩
  | none => Act.halt

variable (s : TokenSystem)

def TokenSystem.select (env : Env) (requestMap : Map Value) :
    Option TokenSystem :=
  if s.core.resting then some { s with core := s.core.handle (serveRequest env requestMap) }
  else none

def TokenSystem.serve (input : Input) : Option TokenSystem :=
  if s.ats.resting then some { s with ats := s.ats.handle (handleInput config s.ats.state input) }
  else none

def TokenSystem.step : TokenEvent → Option TokenSystem
  | .request env requestMap => s.select env requestMap
  | .ask now order =>
    match s.asked, s.core.pending.head?.bind Effect.question with
    | false, some question =>
      { s with asked := true }.serve config ⟨now, .core question order⟩
    | _, _ => none
  | .answer =>
    match s.asked, s.core.pending, s.ats.pending with
    | true, question :: _, .answer response :: _ =>
      if question.goesOnWith response then
        some { core := s.core.advance, asked := false, ats := s.ats.advance }
      else none
    | _, _, _ => none
  | .cancel env =>
    match s.ats.pending with
    | .cancel gatingId :: _ => { s with ats := s.ats.advance }.select env (cancelRequest gatingId)
    | _ => none
  | .proceed =>
    match s.core.pending with
    | e :: _ => if e.question.isNone then some { s with core := s.core.advance } else none
    | [] => none
  | .serve input =>
    match input.event with
    | .core _ _ => none
    | .deleteJti _ => none
    | _ => s.serve config input
  | .deleteJti jti =>
    some { s with
      ats := { s.ats with
        state := { s.ats.state with
          jtiCache := s.ats.state.jtiCache.filter (· ≠ jti) } } }
  | .sent =>
    match s.ats.pending with
    | .other :: _ => some { s with ats := s.ats.advance }
    | _ => none

def tokenMachine : Machine TokenSystem TokenEvent Unit where
  init s := s.core = { state := () } ∧ s.asked = false ∧ ∃ state, Initial state ∧ s.ats = { state }
  step s event := (s.step config event).map fun after => (after, ())

def Effect.IsQuestion (e : Effect) : Prop := e.question.isSome = true

def Sent.IsCancel : Sent → Prop
  | .cancel _ => True
  | _ => False

/-- The core waits on `atsChannel[0]`, the token server on `atsChannel[1]`. -/
def TokenDeadlock : Prop := s.core.WaitsAt Effect.IsQuestion ∧ s.ats.WaitsAt Sent.IsCancel

def CancelsNone (config : Config) (state : State) (input : Input) : Prop :=
  match input.event with
  | .expiryTicker => ∀ i seconds, (state.activeList.get i).gatingId ≠ -1 →
      atoi (state.activeList.get i).atExpiryTime = some seconds → input.now.after seconds = false
  | .ecf message => ∀ gatingId text, acceptedCancel config message = some (gatingId, text) →
      (∃ i, (state.pendingList.get i).gatingId = gatingId) ∨
        ∀ i, (state.activeList.get i).gatingId ≠ gatingId
  | _ => True

def TokenQuiet (config : Config) (s : TokenSystem) : TokenEvent → Prop
  | .serve input => CancelsNone config s.ats.state input
  | _ => True

variable {config} {state after : State} {input : Input} {output : Output}

def cancelOf : Output → Option Str
  | .ecf _ cancel => cancel
  | .purge cancel => cancel
  | _ => none

theorem sentFor_cancel {gatingId : Str} (sent : .cancel gatingId ∈ sentFor output) :
    cancelOf output = some gatingId := by
  cases output with
  | atRequest response ask =>
    cases ask with
    | none | some => simp [sentFor] at sent
  | ecf | purge => simpa [sentFor, cancelOf] using sent
  | _ => simp [sentFor] at sent

theorem purgeLists_cancels_none (now : Time)
    (spared : CancelsNone config state ⟨now, .expiryTicker⟩) : (purgeLists now state).2 = none := by
  unfold purgeLists
  split
  · rfl
  · rfl
  · split
    · next i found =>
      obtain ⟨occupied, seconds, time, past⟩ := findExpired_expired found
      rw [spared i seconds occupied time] at past
      cases past
    · rfl

theorem consentCancelResponse_cancels_none {message : Str}
    (spared : ∀ gatingId text, parseConsentCancel config message = .ok (gatingId, text) →
      (∃ i, (state.pendingList.get i).gatingId = gatingId) ∨
        ∀ i, (state.activeList.get i).gatingId ≠ gatingId) :
    (consentCancelResponse config message state).2.2 = none := by
  unfold consentCancelResponse
  split
  · rfl
  · next gatingId text parsed =>
    split
    · rfl
    · next missed =>
      obtain ⟨i, pending⟩ | absent := spared gatingId text parsed
      · exact absurd pending (Slots.not_of_first missed i)
      · split
        · next i found => exact absurd (Slots.of_first found) (absent i)
        · rfl

theorem ecfMessage_cancels_none {now : Time} {message : Str}
    (spared : CancelsNone config state ⟨now, .ecf message⟩) :
    cancelOf (ecfMessage config message state).2 = none := by
  unfold ecfMessage generateEcfResponse
  split_ifs with available status reply cancel
  · rfl
  · rfl
  · rfl
  · apply consentCancelResponse_cancels_none
    intro gatingId text parsed
    apply spared gatingId text
    unfold acceptedCancel
    rw [if_neg (not_or.mpr ⟨status, reply⟩), if_pos cancel, parsed]
    rfl
  · rfl

theorem generateClientResponse_cancels_none {now : Time} {request : Str} {uuid : Option Str}
    (answered : generateClientResponse config now request uuid state = some (after, output)) :
    cancelOf output = none := by
  unfold generateClientResponse at answered
  split_ifs at answered
  · obtain ⟨result, -, same⟩ := map_eq_some_iff.mp answered
    cases same
    rfl
  · cases answered
    rfl
  · cases answered
    rfl

theorem step_cancels_none (spared : CancelsNone config state input)
    (stepped : AtServer.step config state input = some (after, output)) :
    cancelOf output = none := by
  obtain ⟨now, event⟩ := input
  cases event with
  | client => exact generateClientResponse_cancels_none stepped
  | core =>
    obtain ⟨response, -, same⟩ := map_eq_some_iff.mp stepped
    cases same
    rfl
  | ecf =>
    have same := congrArg Prod.snd (some.inj stepped)
    rw [← show _ = output from same]
    exact ecfMessage_cancels_none spared
  | expiryTicker =>
    cases stepped
    show (purgeLists now state).2.map itoa = none
    rw [purgeLists_cancels_none now spared]
    rfl
  | deleteJti =>
    cases stepped
    rfl

theorem handleInput_avoids (spared : CancelsNone config state input) :
    (handleInput config state input).Avoids Sent.IsCancel := by
  unfold handleInput
  split
  · next after output stepped =>
    intro e mem kind
    cases e with
    | cancel =>
      have cancels := sentFor_cancel mem
      rw [step_cancels_none spared stepped] at cancels
      cases cancels
    | _ => exact kind
  · exact Act.avoids_halt

variable {s s' : TokenSystem}

theorem serve_clear (spared : CancelsNone config s.ats.state input)
    (taken : s.serve config input = some s') : s'.ats.Clear Sent.IsCancel := by
  unfold TokenSystem.serve at taken
  split_ifs at taken
  cases taken
  exact Process.clear_handle (handleInput_avoids spared)

theorem select_ats {env : Env} {request : Map Value}
    (taken : s.select env request = some s') : s'.ats = s.ats := by
  unfold TokenSystem.select at taken
  split_ifs at taken
  cases taken
  rfl

theorem tokenStep_clear {event : TokenEvent} (clear : s.ats.Clear Sent.IsCancel)
    (quiet : TokenQuiet config s event) (taken : s.step config event = some s') :
    s'.ats.Clear Sent.IsCancel := by
  unfold TokenSystem.step at taken
  cases event with
  | request =>
    rw [select_ats taken]
    exact clear
  | ask =>
    dsimp only at taken
    split at taken
    · refine serve_clear ?_ taken
      trivial
    · cases taken
  | answer =>
    dsimp only at taken
    split at taken
    · split_ifs at taken
      cases taken
      exact clear.advance
    · cases taken
  | cancel =>
    dsimp only at taken
    split at taken
    · rw [select_ats taken]
      exact clear.advance
    · cases taken
  | proceed =>
    dsimp only at taken
    split at taken
    · split_ifs at taken
      cases taken
      exact clear
    · cases taken
  | serve =>
    dsimp only at taken
    split at taken
    · cases taken
    · cases taken
    · exact serve_clear quiet taken
  | deleteJti =>
    cases taken
    exact clear
  | sent =>
    dsimp only at taken
    split at taken
    · cases taken
      exact clear.advance
    · cases taken

/-- Where no active token expires or is cancelled, the two never wait for each other. -/
theorem no_token_deadlock_of_quiet (config : Config)
    {history : History TokenSystem TokenEvent Unit} {s : TokenSystem}
    (run : Run (tokenMachine config) (fun _ t => TokenQuiet config t.before t.event) history s) :
    ¬ TokenDeadlock s := by
  have clear : s.ats.Clear Sent.IsCancel := by
    apply Run.invariant (fun _ s => s.ats.Clear Sent.IsCancel) _ _ run
    · rintro s ⟨-, -, state, -, begins⟩
      rw [begins]
      intro e member
      cases member
    · intro _ t clear taken quiet
      exact tokenStep_clear clear quiet (step_of_taken taken)
  rintro ⟨-, waits⟩
  exact clear.not_waitsAt waits

theorem TokenDeadlock.step {event : TokenEvent} (deadlock : TokenDeadlock s)
    (taken : s.step config event = some s') : TokenDeadlock s' := by
  obtain ⟨asks, cancels⟩ := deadlock
  have coreBusy : ∀ ats env requestMap,
      TokenSystem.select { s with ats } env requestMap = none := by
    intro ats env requestMap
    unfold TokenSystem.select
    rw [if_neg (by simpa using asks.not_resting)]
  have atsBusy : ∀ asked input, TokenSystem.serve config { s with asked } input = none := by
    intro asked input
    unfold TokenSystem.serve
    rw [if_neg (by simpa using cancels.not_resting)]
  obtain ⟨question, coreHead, kind⟩ := asks
  obtain ⟨sent, atsHead, isCancel⟩ := cancels
  unfold TokenSystem.step at taken
  cases event with
  | request env requestMap => cases (coreBusy s.ats env requestMap).symm.trans taken
  | ask =>
    dsimp only at taken
    split at taken
    · rw [atsBusy] at taken
      cases taken
    · cases taken
  | answer | sent =>
    dsimp only at taken
    split at taken
    · next found =>
      rw [found] at atsHead
      cases atsHead
      exact isCancel.elim
    · cases taken
  | cancel =>
    dsimp only at taken
    split at taken
    · rw [coreBusy] at taken
      cases taken
    · cases taken
  | proceed =>
    dsimp only at taken
    split at taken
    · next e rest found =>
      rw [found] at coreHead
      cases coreHead
      rw [if_neg (by simp [isSome_iff_ne_none.mp kind])] at taken
      cases taken
    · cases taken
  | serve input =>
    dsimp only at taken
    split at taken
    · cases taken
    · cases taken
    · cases (atsBusy s.asked input).symm.trans taken
  | deleteJti =>
    cases taken
    exact ⟨⟨question, coreHead, kind⟩, sent, atsHead, isCancel⟩

def vehicleEnv : Env := { fileEnv with himForest := sampleConfig.himForest }

def protectedRequest : Map Value :=
  set "authorization" (.str speedToken) (getRequest "Vehicle/Speed")

theorem sampleStart : (tokenMachine sampleConfig).init { ats := { state := sampleState } } :=
  ⟨rfl, rfl, sampleState, sampleState_initial, rfl⟩

def isTokenDeadlock (s : TokenSystem) : Bool :=
  (s.core.pending.head?.bind Effect.question).isSome &&
    match s.ats.pending with
    | .cancel _ :: _ => true
    | _ => false

theorem tokenDeadlock_of_isTokenDeadlock (found : isTokenDeadlock s = true) : TokenDeadlock s := by
  unfold isTokenDeadlock at found
  obtain ⟨asks, cancels⟩ := Bool.and_eq_true_iff.mp found
  constructor
  · obtain ⟨text, asked⟩ := isSome_iff_exists.mp asks
    obtain ⟨question, head, same⟩ := bind_eq_some_iff.mp asked
    exact ⟨question, head, isSome_iff_exists.mpr ⟨text, same⟩⟩
  · split at cancels
    · next gatingId rest pending =>
      refine ⟨.cancel gatingId, ?_, trivial⟩
      rw [pending]
      rfl
    · cases cancels

/-- A token expires just before a request with it: both are stuck. -/
theorem token_expiry_meets_request :
    ∃ history s, Run (tokenMachine sampleConfig) anyStep history s ∧ TokenDeadlock s ∧
      ∀ event s', s.step sampleConfig event = some s' → TokenDeadlock s' := by
  obtain ⟨history, s, run, found⟩ := Run.of_exec (tokenMachine sampleConfig) _ sampleStart
    [.serve requestSpeed, .sent, .serve ⟨second 6000, .expiryTicker⟩,
      .request vehicleEnv protectedRequest]
    (fun _ s => isTokenDeadlock s) (by decide +kernel)
  have deadlock := tokenDeadlock_of_isTokenDeadlock found
  exact ⟨history, s, run, deadlock, fun _ _ taken => deadlock.step taken⟩

variable (t : Transition TokenSystem TokenEvent Unit)

def ticksEarly : Bool :=
  match t.event with
  | .serve ⟨now, .expiryTicker⟩ => decide (∀ i,
      (atoi (t.before.ats.state.activeList.get i).atExpiryTime).all fun seconds =>
        !now.after seconds)
  | .serve ⟨_, .ecf _⟩ => false
  | _ => true

theorem tokenQuiet_of_ticksEarly
    (early : ticksEarly t = true) : TokenQuiet sampleConfig t.before t.event := by
  obtain ⟨before, event, after, output⟩ := t
  cases event with
  | serve input =>
    obtain ⟨now, event⟩ := input
    cases event with
    | expiryTicker =>
      intro i seconds _ time
      have later := of_decide_eq_true early i
      rw [time] at later
      simpa using later
    | ecf => cases early
    | _ => trivial
  | _ => trivial

theorem no_token_deadlock_valid_token : ∃ history s,
      Run (tokenMachine sampleConfig) (fun _ t => TokenQuiet sampleConfig t.before t.event)
        history s ∧
      (s.core.pending.head?.bind Effect.question).isSome = true ∧ ¬ TokenDeadlock s := by
  obtain ⟨history, s, run, asks⟩ := Run.of_execWhile (tokenMachine sampleConfig) _ sampleStart
    (fun t => ticksEarly t) (fun _ t => tokenQuiet_of_ticksEarly t)
    [.serve requestSpeed, .sent, .serve ⟨second 2001, .expiryTicker⟩,
      .request vehicleEnv protectedRequest]
    (fun _ s => (s.core.pending.head?.bind Effect.question).isSome) (by decide +kernel)
  exact ⟨history, s, run, asks, no_token_deadlock_of_quiet sampleConfig run⟩

end Vissr.Core
