import Vissr.Core.AccessControl
import Vissr.ErrorResponse
import Vissr.Process
import Vissr.Channel

/-! The errors of the core on their way: one map is filled, and a `transportDataSession` writes it
out. -/

namespace Vissr.Core

open Json List Option Nat

structure Served where
  requestMap : Map Value
  error : Option (Map Value)

/-- The error map is the same for all requests; the number of one tells them apart. -/
inductive OnChannel where
  | own (message : Map Value)
  | error (request : Nat)

def OnChannel.request : OnChannel → Option Nat
  | .own _ => none
  | .error request => some request

structure Written where
  request : Nat
  message : Map Value

structure ErrorSystem where
  errorResponseMap : Map Value := []
  core : Process Unit Effect := { state := () }
  /-- the error map is filled for the error that is to be sent next -/
  filled : Bool := false
  /-- the transport the request in hand came from -/
  transport : Fin numOfTransportMgrs := ⟨0, by decide⟩
  served : List Served := []
  backendChan : Channels (Fin numOfTransportMgrs) OnChannel pipelineBuf := {}
  written : List Written := []

inductive ErrorEvent where
  /-- the dispatcher takes a request of a transport -/
  | request (env : Env) (requestMap : Map Value) (transport : Fin numOfTransportMgrs)
  /-- `SetErrorResponse` -/
  | fill
  /-- the send on `backendChan` -/
  | send
  /-- what the dispatcher does without `backendChan` -/
  | proceed
  /-- `serviceDataSession` sends a response or a notification -/
  | forward (transport : Fin numOfTransportMgrs) (message : Map Value)
  /-- a `transportDataSession` takes a map and writes it out -/
  | take (transport : Fin numOfTransportMgrs)

variable (s : ErrorSystem)

def ErrorSystem.environment (env : Env) : Env :=
  { env with errorResponseMap := s.errorResponseMap }

def errorsOf (effects : List Effect) : List (Map Value) := effects.filterMap Effect.errorContent

def ErrorSystem.serve (env : Env) (requestMap : Map Value)
    (transport : Fin numOfTransportMgrs) : ErrorSystem :=
  let handler := serveRequest (s.environment env) requestMap
  { s with
    core := s.core.handle handler
    transport
    served := s.served ++ [⟨requestMap, (errorsOf handler.effects).head?⟩] }

def ErrorSystem.sendAnswer : Answer → Option ErrorSystem
  | .own message =>
    (s.backendChan.send s.transport (.own message)).map fun backendChan =>
      { s with backendChan, core := s.core.advance }
  | .error _ =>
    if s.filled then
      (s.backendChan.send s.transport (.error (s.served.length - 1))).map fun backendChan =>
        { s with backendChan, core := s.core.advance, filled := false }
    else none

def ErrorSystem.writeOut : OnChannel → ErrorSystem
  | .own _ => s
  | .error request => { s with written := s.written ++ [⟨request, s.errorResponseMap⟩] }

def ErrorSystem.step : ErrorEvent → Option ErrorSystem
  | .request env requestMap transport =>
    if s.core.resting then some (s.serve env requestMap transport) else none
  | .fill =>
    match s.filled, s.core.pending with
    | false, .backendChan (.error content) :: _ =>
      some { s with errorResponseMap := content, filled := true }
    | _, _ => none
  | .send =>
    match s.core.pending with
    | .backendChan answer :: _ => s.sendAnswer answer
    | _ => none
  | .proceed =>
    match s.core.pending with
    | [] => none
    | .backendChan _ :: _ => none
    | _ :: _ => some { s with core := s.core.advance }
  | .forward transport message =>
    (s.backendChan.send transport (.own message)).map fun backendChan => { s with backendChan }
  | .take transport =>
    (s.backendChan.receive transport).map fun (sent, backendChan) =>
      { s.writeOut sent with backendChan }

def errorMachine : Machine ErrorSystem ErrorEvent Unit where
  init s := s = {}
  step s event := (s.step event).map fun after => (after, ())

structure Carries (requestMap error message : Map Value) : Prop where
  routerId : field message "RouterId" = field requestMap "RouterId"
  requestId : field message "requestId" = field requestMap "requestId"
  error : message.lookup "error".toList = error.lookup "error".toList

def ErrorSystem.queued : List Nat := s.backendChan.items.filterMap fun item => item.2.request

/-- How often the error of a request is still to be written out. -/
def ErrorSystem.waiting (request : Nat) : Nat := s.queued.count request +
    if request + 1 = s.served.length then (errorsOf s.core.pending).length else 0

/-- Every error is written out once, for its request. -/
def OneAnswer : Prop :=
  ∀ request served error, s.served[request]? = some served → served.error = some error →
    (s.written.countP fun w => w.request = request) + s.waiting request = 1 ∧
      ∀ w ∈ s.written, w.request = request → Carries served.requestMap error w.message

/-- No error is on a channel, and the request has a router id. -/
def FillsAlone : ErrorEvent → Prop
  | .fill => s.queued = [] ∧
      ∃ served ∈ s.served.getLast?, isNil served.requestMap "RouterId" = false
  | _ => True

instance (s : ErrorSystem) (event : ErrorEvent) : Decidable (FillsAlone s event) :=
  match event with
  | .fill => inferInstanceAs (Decidable (s.queued = [] ∧
      ∃ served ∈ s.served.getLast?, isNil served.requestMap "RouterId" = false))
  | .request .. | .send | .proceed | .forward .. | .take _ => isTrue trivial

variable {env : Env} {request content : Map Value}

theorem IsErrorOf.carries (own : IsErrorOf env request content)
    (routed : isNil request "RouterId" = false) : Carries request content content := by
  obtain ⟨requestMap', errorIndex, description, same, rfl⟩ := own
  have copied : ∀ k ∈ copiedFields, field requestMap' k = field request k := by
    intro k mem
    unfold field
    rw [same k mem]
  refine ⟨field_of_lookup ?_, field_of_lookup ?_, rfl⟩
  · unfold errorResponse
    rw [lookup_setErrorResponse, if_neg (by decide), if_neg (by decide), if_neg (by decide),
      if_pos (by decide), copied "RouterId" (by decide)]
    cases found : field request "RouterId" with
    | none =>
      rw [field_eq_none.mp found] at routed
      cases routed
    | some => rfl
  · unfold errorResponse
    rw [lookup_setErrorResponse, if_neg (by decide), if_neg (by decide), if_pos rfl,
      copied "requestId" (by decide)]

variable {s s' : ErrorSystem}

def ErrorSystem.Holds (s : ErrorSystem) (request : Nat) : Prop :=
  ∃ served, s.served[request]? = some served ∧ served.error = some s.errorResponseMap ∧
    Carries served.requestMap s.errorResponseMap s.errorResponseMap

/-- The map belongs to every error that is on a channel. -/
structure Orderly (s : ErrorSystem) : Prop where
  held : ∀ request ∈ s.queued, s.Holds request
  numbered : ∀ w ∈ s.written, w.request < s.served.length
  carried : ∀ w ∈ s.written, ∀ served error, s.served[w.request]? = some served →
    served.error = some error → Carries served.requestMap error w.message
  counted : ∀ request served error, s.served[request]? = some served → served.error = some error →
      (s.written.countP fun w => w.request = request) + s.waiting request = 1
  own : ∀ served ∈ s.served, ∀ error ∈ served.error,
    isNil served.requestMap "RouterId" = false → Carries served.requestMap error error
  pending : ∀ error ∈ errorsOf s.core.pending,
    ∃ served, s.served.getLast? = some served ∧ served.error = some error
  filled : s.filled = true →
    errorsOf s.core.pending ≠ [] ∧ s.queued = [] ∧ s.Holds (s.served.length - 1)

variable {request : Nat} {rest : List Effect}
  {backendChan : Channels (Fin numOfTransportMgrs) OnChannel pipelineBuf}

theorem ErrorSystem.Holds.lt (holds : s.Holds request) : request < s.served.length := by
  obtain ⟨served, found, -⟩ := holds
  exact (List.getElem?_eq_some_iff.mp found).1

theorem pending_nil_of_resting (resting : s.core.resting = true) : s.core.pending = [] := by
  unfold Process.resting at resting
  exact isEmpty_iff.mp (Bool.and_eq_true_iff.mp resting).1

theorem mem_errorsOf {effects : List Effect} {error : Map Value} :
    error ∈ errorsOf effects ↔ ∃ e ∈ effects, e.errorContent = some error :=
  mem_filterMap

theorem head?_of_mem {effects : List Effect} {error : Map Value}
    (once : (errorsOf effects).length ≤ 1) (mem : error ∈ errorsOf effects) :
    (errorsOf effects).head? = some error := by
  match errorsOf effects, once, mem with
  | [only], _, mem =>
    rw [mem_singleton.mp mem]
    rfl

theorem ErrorSystem.Holds.serve (holds : s.Holds request) (env : Env) (requestMap : Map Value)
    (transport : Fin numOfTransportMgrs) : (s.serve env requestMap transport).Holds request := by
  have early := holds.lt
  obtain ⟨served, found, rest⟩ := holds
  refine ⟨served, ?_, rest⟩
  exact (getElem?_append_left early).trans found

open ErrorSystem

/-- Nothing happens to an error. -/
structure SameErrors (s s' : ErrorSystem) : Prop where
  map : s'.errorResponseMap = s.errorResponseMap
  served : s'.served = s.served
  written : s'.written = s.written
  filled : s'.filled = s.filled
  queued : s'.queued.Perm s.queued
  pending : errorsOf s'.core.pending = errorsOf s.core.pending

/-- What a step does to the errors. -/
inductive ErrorStep (s : ErrorSystem) : ErrorEvent → ErrorSystem → Prop
  | serve (env : Env) (requestMap : Map Value) (transport : Fin numOfTransportMgrs)
      (resting : s.core.resting = true) :
    ErrorStep s (.request env requestMap transport) (s.serve env requestMap transport)
  | fill {content : Map Value} {rest : List Effect} (unfilled : s.filled = false)
      (next : s.core.pending = .backendChan (.error content) :: rest) :
    ErrorStep s .fill { s with errorResponseMap := content, filled := true }
  | sendError {content : Map Value} {rest : List Effect}
      {backendChan : Channels (Fin numOfTransportMgrs) OnChannel pipelineBuf}
      (next : s.core.pending = .backendChan (.error content) :: rest) (filled : s.filled = true)
      (sent : s.backendChan.send s.transport (.error (s.served.length - 1)) = some backendChan) :
    ErrorStep s .send { s with backendChan, core := s.core.advance, filled := false }
  | takeError {transport : Fin numOfTransportMgrs} {request : Nat}
      {backendChan : Channels (Fin numOfTransportMgrs) OnChannel pipelineBuf}
      (taken : s.backendChan.items.Perm ((transport, .error request) :: backendChan.items)) :
    ErrorStep s (.take transport) { s.writeOut (.error request) with backendChan }
  | other {event : ErrorEvent} {s' : ErrorSystem} (same : SameErrors s s') : ErrorStep s event s'

theorem queued_forward {t : Fin numOfTransportMgrs} {message : Map Value}
    (sent : s.backendChan.send t (.own message) = some backendChan) :
    backendChan.items.filterMap (fun item => item.2.request) = s.queued := by
  rw [Channels.items_of_send sent, filterMap_append]
  exact append_nil _

theorem ErrorSystem.sendAnswer_cases {answer : Answer}
    (next : s.core.pending = .backendChan answer :: rest)
    (sent : s.sendAnswer answer = some s') : ErrorStep s .send s' := by
  cases answer with
  | own =>
    obtain ⟨backendChan, accepted, rfl⟩ := map_eq_some_iff.mp sent
    refine .other ⟨rfl, rfl, rfl, rfl, .of_eq (queued_forward accepted), ?_⟩
    show errorsOf s.core.pending.tail = errorsOf s.core.pending
    rw [next]
    rfl
  | error =>
    unfold ErrorSystem.sendAnswer at sent
    split_ifs at sent with filled
    obtain ⟨backendChan, accepted, rfl⟩ := map_eq_some_iff.mp sent
    exact .sendError next filled accepted

theorem ErrorSystem.step_cases {event : ErrorEvent} (taken : s.step event = some s') :
    ErrorStep s event s' := by
  unfold ErrorSystem.step at taken
  split at taken
  · split_ifs at taken with resting
    cases taken
    exact .serve _ _ _ resting
  · split at taken
    · next unfilled next =>
      cases taken
      exact .fill unfilled next
    · cases taken
  · split at taken
    · next next => exact sendAnswer_cases next taken
    · cases taken
  · split at taken
    · cases taken
    · cases taken
    · next e rest other next =>
      cases taken
      refine .other ⟨rfl, rfl, rfl, rfl, .refl _, ?_⟩
      show errorsOf s.core.pending.tail = errorsOf s.core.pending
      rw [next]
      cases e with
      | backendChan answer => exact absurd rfl (other answer)
      | _ => rfl
  · obtain ⟨backendChan, sent, rfl⟩ := map_eq_some_iff.mp taken
    exact .other ⟨rfl, rfl, rfl, rfl, .of_eq (queued_forward sent), rfl⟩
  · obtain ⟨⟨sent, backendChan⟩, received, rfl⟩ := map_eq_some_iff.mp taken
    have items := Channels.perm_of_receive received
    cases sent with
    | own =>
      have same : s.queued.Perm (backendChan.items.filterMap fun item => item.2.request) :=
        items.filterMap _
      exact .other ⟨rfl, rfl, rfl, rfl, same.symm, rfl⟩
    | error => exact .takeError items

theorem waiting_serve (early : request < s.served.length) (idle : s.core.pending = []) (env : Env)
    (requestMap : Map Value) (transport : Fin numOfTransportMgrs) :
    (s.serve env requestMap transport).waiting request = s.waiting request := by
  have last : request + 1 ≠ (s.serve env requestMap transport).served.length := by
    show request + 1 ≠ (s.served ++ [_]).length
    rw [length_append, length_singleton]
    omega
  have none : (errorsOf s.core.pending).length = 0 := by
    rw [idle]
    rfl
  unfold waiting
  rw [if_neg last, none, ite_self]
  rfl

section

variable (orderly : Orderly s)

include orderly

theorem waiting_served (env : Env) (request : Map Value)
    (transport : Fin numOfTransportMgrs) {error : Map Value}
    (answered : (errorsOf (serveRequest (s.environment env) request).effects).head? =
      some error) : (s.serve env request transport).waiting s.served.length = 1 := by
  have last : s.served.length + 1 = (s.serve env request transport).served.length := by
    show s.served.length + 1 = (s.served ++ [_]).length
    rw [length_append, length_singleton]
  have new : s.queued.count s.served.length = 0 := by
    rw [count_eq_zero]
    intro mem
    exact lt_irrefl _ (orderly.held _ mem).lt
  have once := @serveRequest_error_once (s.environment env) request
  have some : 0 < (errorsOf (serveRequest (s.environment env) request).effects).length :=
    length_pos_of_mem (mem_of_mem_head? answered)
  unfold waiting
  rw [if_pos last]
  show s.queued.count _ + (errorsOf (serveRequest (s.environment env) request).effects).length = 1
  rw [new]
  unfold errorsOf at some ⊢
  omega

theorem Orderly.serve (env : Env) (requestMap : Map Value)
    (transport : Fin numOfTransportMgrs) (resting : s.core.resting = true) :
    Orderly (s.serve env requestMap transport) := by
  have idle := pending_nil_of_resting resting
  have served_cases : ∀ request served,
      (s.serve env requestMap transport).served[request]? = some served →
        (request < s.served.length ∧ s.served[request]? = some served) ∨
        (request = s.served.length ∧ served = ⟨requestMap,
            (errorsOf (serveRequest (s.environment env) requestMap).effects).head?⟩) := by
    intro request served found
    refine (getElem?_concat_cases found).imp_left fun before => ⟨?_, before⟩
    exact (List.getElem?_eq_some_iff.mp before).1
  constructor
  case held =>
    intro request queued
    exact (orderly.held request queued).serve env requestMap transport
  case numbered =>
    intro w mem
    exact lt_of_lt_of_le (orderly.numbered w mem) (by simp [ErrorSystem.serve])
  case carried =>
    intro w mem served error found failed
    obtain ⟨-, before⟩ | ⟨last, -⟩ := served_cases _ _ found
    · exact orderly.carried w mem served error before failed
    · exact absurd (orderly.numbered w mem) (by simp [last])
  case counted =>
    intro request served error found failed
    obtain ⟨early, before⟩ | ⟨rfl, rfl⟩ := served_cases _ _ found
    · rw [waiting_serve early idle]
      exact orderly.counted request served error before failed
    · rw [waiting_served orderly env requestMap transport failed, add_eq_right, countP_eq_zero]
      intro w mem
      have early := orderly.numbered w mem
      simpa using Nat.ne_of_lt early
  case own =>
    intro served mem error failed routed
    obtain before | last := mem_append.mp mem
    · exact orderly.own served before error failed routed
    · rw [mem_singleton.mp last] at failed routed ⊢
      obtain ⟨e, effect, content⟩ := mem_errorsOf.mp (mem_of_mem_head? failed)
      exact (serveRequest_error effect content).carries routed
  case pending =>
    intro error mem
    refine ⟨_, getLast?_concat, ?_⟩
    have once := @serveRequest_error_once (s.environment env) requestMap
    exact head?_of_mem once mem
  case filled =>
    intro filled
    refine absurd ?_ (orderly.filled filled).1
    rw [idle]
    rfl

theorem Orderly.of_same (same : SameErrors s s') : Orderly s' := by
  rcases same with ⟨map, served, written, filled, queued, pending⟩
  have holds : ∀ request, s.Holds request → s'.Holds request := by
    intro request held
    unfold ErrorSystem.Holds
    rw [served, map]
    exact held
  have waiting : ∀ request, s'.waiting request = s.waiting request := by
    intro request
    unfold waiting
    rw [queued.count_eq, served, pending]
  constructor
  case held =>
    intro request mem
    exact holds request (orderly.held request (queued.mem_iff.mp mem))
  case numbered =>
    rw [written, served]
    exact orderly.numbered
  case carried =>
    rw [written, served]
    exact orderly.carried
  case counted =>
    intro request
    rw [written, served, waiting]
    exact orderly.counted request
  case own =>
    rw [served]
    exact orderly.own
  case pending =>
    rw [pending, served]
    exact orderly.pending
  case filled =>
    intro full
    obtain ⟨next, alone, held⟩ := orderly.filled (filled.symm.trans full)
    refine ⟨?_, ?_, ?_⟩
    · rw [pending]
      exact next
    · exact (alone ▸ queued).eq_nil
    · rw [served]
      exact holds _ held

theorem Orderly.fill
    (next : s.core.pending = .backendChan (.error content) :: rest) (alone : FillsAlone s .fill) :
    Orderly { s with errorResponseMap := content, filled := true } := by
  obtain ⟨empty, routed⟩ := alone
  have first : errorsOf s.core.pending = content :: errorsOf rest := by
    rw [next]
    rfl
  refine { orderly with held := ?_, filled := ?_ }
  · intro request (mem : request ∈ s.queued)
    rw [empty] at mem
    cases mem
  · intro _
    refine ⟨?_, empty, ?_⟩
    · show errorsOf s.core.pending ≠ []
      rw [first]
      exact cons_ne_nil _ _
    · obtain ⟨served, last, failed⟩ := orderly.pending content (first ▸ mem_cons_self)
      obtain ⟨served', last', hasRouter⟩ := routed
      cases last.symm.trans last'
      refine ⟨served, ?_, failed, ?_⟩
      · exact getLast?_eq_getElem?.symm.trans last
      · exact orderly.own served (mem_of_getLast? last) content failed hasRouter

theorem Orderly.sendError
    (next : s.core.pending = .backendChan (.error content) :: rest) (filled : s.filled = true)
    (sent : s.backendChan.send s.transport (.error (s.served.length - 1)) = some backendChan) :
    Orderly { s with backendChan, core := s.core.advance, filled := false } := by
  obtain ⟨-, empty, held⟩ := orderly.filled filled
  have first : errorsOf s.core.pending = content :: errorsOf rest := by
    rw [next]
    rfl
  have later : errorsOf s.core.advance.pending = errorsOf rest := by
    unfold Process.advance
    rw [next]
    rfl
  have queued : queued { s with backendChan, core := s.core.advance, filled := false } =
      [s.served.length - 1] := by
    unfold queued at empty ⊢
    rw [Channels.items_of_send sent, filterMap_append, empty]
    rfl
  refine { orderly with held := ?_, counted := ?_, pending := ?_, filled := nofun }
  · intro request mem
    rw [queued] at mem
    rw [mem_singleton.mp mem]
    exact held
  · intro request served error found failed
    rw [← orderly.counted request served error found failed]
    congr 1
    unfold waiting
    rw [queued, empty, first]
    show count request [s.served.length - 1] +
      (if request + 1 = s.served.length then (errorsOf s.core.advance.pending).length else 0) = _
    rw [later, count_singleton]
    have some := held.lt
    by_cases last : request + 1 = s.served.length
    · have same : s.served.length - 1 = request := by omega
      simp [last, same, add_comm]
    · have other : s.served.length - 1 ≠ request := by omega
      simp [last, other]
  · intro error mem
    refine orderly.pending error ?_
    rw [first]
    exact mem_cons_of_mem _ (later ▸ mem)

theorem Orderly.takeError {transport}
    (taken : s.backendChan.items.Perm ((transport, .error request) :: backendChan.items)) :
    Orderly { s.writeOut (.error request) with backendChan } := by
  have queued : s.queued.Perm
      (request :: queued { s.writeOut (.error request) with backendChan }) :=
    taken.filterMap _
  have held : s.Holds request := orderly.held request (queued.mem_iff.mpr mem_cons_self)
  refine { orderly with held := ?_, numbered := ?_, carried := ?_, counted := ?_, filled := ?_ }
  · intro other mem
    exact orderly.held other (queued.mem_iff.mpr (mem_cons_of_mem _ mem))
  · intro w mem
    obtain before | last := mem_append.mp mem
    · exact orderly.numbered w before
    · rw [mem_singleton.mp last]
      exact held.lt
  · intro w mem served error found failed
    obtain before | last := mem_append.mp mem
    · exact orderly.carried w before served error found failed
    · rw [mem_singleton.mp last] at found ⊢
      obtain ⟨served', found', failed', carries⟩ := held
      cases found.symm.trans found'
      cases failed.symm.trans failed'
      exact carries
  · intro other served error found failed
    have waits : s.waiting other =
        waiting { s.writeOut (.error request) with backendChan } other +
          if request = other then 1 else 0 := by
      unfold waiting
      rw [queued.count_eq, count_cons]
      simp only [beq_iff_eq]
      exact add_right_comm _ _ _
    have writes : (s.writeOut (.error request)).written.countP (fun w => w.request = other) =
        s.written.countP (fun w => w.request = other) + if request = other then 1 else 0 := by
      show countP _ (s.written ++ [_]) = _
      rw [countP_append, countP_singleton]
      simp only [decide_eq_true_eq]
    have before := orderly.counted other served error found failed
    rw [waits] at before
    calc
      _ = s.written.countP (fun w => w.request = other) + (if request = other then 1 else 0) +
          waiting { s.writeOut (.error request) with backendChan } other := by
        rw [← writes]
      _ = 1 := by
        rw [add_right_comm, add_assoc]
        exact before
  · intro filled
    have empty := (orderly.filled filled).2.1
    rw [empty] at queued
    cases queued.nil_eq

theorem Orderly.step {event : ErrorEvent} (alone : FillsAlone s event)
    (step : ErrorStep s event s') : Orderly s' := by
  cases step with
  | serve env requestMap transport resting => exact orderly.serve env requestMap transport resting
  | fill _ next => exact orderly.fill next alone
  | sendError next filled sent => exact orderly.sendError next filled sent
  | takeError taken => exact orderly.takeError taken
  | other same => exact orderly.of_same same

end

theorem orderly_start : Orderly {} where
  held := nofun
  numbered := nofun
  carried := nofun
  counted := nofun
  own := nofun
  pending := nofun
  filled := nofun

/-- Where the map is only filled alone, every error is written out once. -/
theorem one_answer_of_filled_alone {history : History ErrorSystem ErrorEvent Unit} {s : ErrorSystem}
    (run : Run errorMachine (fun _ t => FillsAlone t.before t.event) history s) : OneAnswer s := by
  have orderly : Orderly s := by
    apply Run.invariant (fun _ s => Orderly s) _ _ run
    · rintro s rfl
      exact orderly_start
    · intro history t before taken alone
      exact before.step alone (step_cases (step_of_taken taken))
  intro request served error found failed
  refine ⟨orderly.counted request served error found failed, ?_⟩
  rintro w member rfl
  exact orderly.carried w member served error found failed

/-- The error is that of a request that was served. -/
def ErrorSystem.Answers (s : ErrorSystem) (call : ErrorCall) : Prop :=
  ∃ served ∈ s.served, SameCopied call.requestMap served.requestMap

/-- The errors left the error map, in turn, and the next is written over it. -/
structure Replays (s : ErrorSystem) : Prop where
  map : ∃ calls, s.errorResponseMap = errorMapAfter calls ∧ ∀ call ∈ calls, s.Answers call
  once : (errorsOf s.core.pending).length ≤ 1
  next : s.filled = false → ∀ content ∈ errorsOf s.core.pending,
    ∃ call, s.Answers call ∧ content = call.write s.errorResponseMap

theorem Replays.step (replays : Replays s) {event : ErrorEvent} (step : ErrorStep s event s') :
    Replays s' := by
  rcases replays with ⟨⟨calls, same, own⟩, once, following⟩
  cases step with
  | serve =>
    refine ⟨⟨calls, same, ?_⟩, serveRequest_error_once, ?_⟩
    · intro call mem
      exact (own call mem).imp fun _ => .imp_left (mem_append_left _)
    · intro _ content mem
      obtain ⟨e, effect, found⟩ := mem_errorsOf.mp mem
      obtain ⟨requestMap', errorIndex, description, copied, rfl⟩ := serveRequest_error effect found
      exact ⟨⟨_, requestMap', errorIndex, description⟩,
        ⟨_, mem_append_right _ mem_cons_self, copied⟩, rfl⟩
  | fill unfilled next =>
    obtain ⟨call, answers, rfl⟩ := following unfilled _ (by rw [next]; exact mem_cons_self)
    refine ⟨⟨calls ++ [call], ?_, ?_⟩, once, nofun⟩
    · rw [errorMapAfter_concat, ← same]
    · exact forall_mem_append.mpr ⟨own, forall_mem_singleton.mpr answers⟩
  | @sendError content rest _ next =>
    have last : errorsOf s.core.advance.pending = [] := by
      rw [next] at once
      show errorsOf s.core.pending.tail = []
      rw [next]
      exact eq_nil_of_length_eq_zero (le_zero.mp (le_of_succ_le_succ once))
    refine ⟨⟨calls, same, own⟩, ?_, ?_⟩
    · show (errorsOf s.core.advance.pending).length ≤ 1
      rw [last]
      exact zero_le 1
    · intro _ content mem
      exact absurd (last ▸ mem) not_mem_nil
  | takeError => exact ⟨⟨calls, same, own⟩, once, following⟩
  | other equal =>
    rcases equal with ⟨map, served, -, filled, -, pending⟩
    unfold ErrorSystem.Answers at own following
    refine ⟨⟨calls, map.trans same, ?_⟩, ?_, ?_⟩
    · rwa [← served] at own
    · rwa [← pending] at once
    · rwa [← map, ← served, ← filled, ← pending] at following

/-- The error map of the core is what the errors of its requests leave. -/
theorem errorResponseMap_eq {history : History ErrorSystem ErrorEvent Unit} {s : ErrorSystem}
    (run : Run errorMachine anyStep history s) :
    ∃ calls, s.errorResponseMap = errorMapAfter calls ∧ ∀ call ∈ calls, s.Answers call := by
  have replays : Replays s := by
    apply Run.invariant (fun _ s => Replays s) _ _ run
    · rintro _ rfl
      exact ⟨⟨[], rfl, nofun⟩, zero_le 1, nofun⟩
    · intro history t before taken _
      exact before.step (step_cases (step_of_taken taken))
  exact replays.map

def boatRequest (routerId requestId : Str) : Map Value :=
  [("action", .str "get"), ("path", .str "Boat/Speed"), ("RouterId", .str routerId),
    ("requestId", .str requestId)]

def webSocket : Fin numOfTransportMgrs := ⟨1, by decide⟩

def mqtt : Fin numOfTransportMgrs := ⟨2, by decide⟩

/-- The first error is still on its channel when the map is filled for the second client. -/
theorem both_errors_to_second_client :
    ∃ history s, Run errorMachine anyStep history s ∧ ¬ OneAnswer s := by
  obtain ⟨history, s, run, found⟩ := Run.of_exec errorMachine {} rfl
    [.request fileEnv (boatRequest "1?1" "a") webSocket, .fill, .send,
      .request fileEnv (boatRequest "2?2" "b") mqtt, .fill, .send, .take webSocket, .take mqtt]
    (fun _ s => ∃ w ∈ s.written, ∃ served ∈ s.served[w.request]?, served.error.isSome = true ∧
      getStr w.message "RouterId" ≠ getStr served.requestMap "RouterId")
    (by decide +kernel)
  refine ⟨history, s, run, ?_⟩
  intro one
  obtain ⟨w, member, served, request, failed, other⟩ := found
  obtain ⟨error, failed⟩ := isSome_iff_exists.mp failed
  have carries := (one w.request served error request failed).2 w member rfl
  exact other (getStr_of_field carries.routerId)

/-- The first error is written out before the second. -/
theorem one_answer_in_turn :
    ∃ history s, Run errorMachine (fun _ t => FillsAlone t.before t.event) history s ∧
      s.written.map Written.request = [0, 1] ∧ OneAnswer s := by
  obtain ⟨history, s, run, both⟩ :=
    Run.of_execWhile errorMachine {} rfl (fun t => FillsAlone t.before t.event) (fun _ _ => id)
      [.request fileEnv (boatRequest "1?1" "a") webSocket, .fill, .send, .take webSocket,
        .request fileEnv (boatRequest "2?2" "b") mqtt, .fill, .send, .take mqtt]
      (fun _ s => s.written.map Written.request = [0, 1]) (by decide +kernel)
  exact ⟨history, s, run, both, one_answer_of_filled_alone run⟩

end Vissr.Core
