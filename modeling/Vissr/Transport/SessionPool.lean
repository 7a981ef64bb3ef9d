import Vissr.Marks
import Vissr.Transport.ClientSessions
import Vissr.Transport.FileTransfer

/-! The WebSocket servers of the clients (`utils/managerhandlers.go`) and the file transfer. -/

namespace Vissr.Transport.SessionPool

open List Marks

/-- What comes of an HTTP request to the port. -/
inductive Request
  | plain
  | failedUpgrade
  | upgrade
deriving DecidableEq

inductive Failure
  | read
  | write

/-- A table, and the slots of the sessions that run. -/
structure Pool where
  list : List Bool
  running : List Nat := []

def getIndex (free : Bool) (list : List Bool) : Option (Nat × List Bool) :=
  (list.findIdx? (· = free)).map fun i => (i, list.set i !free)

/-- In `WsClientIndexList` true marks a free slot. -/
def getWsClientIndex (list : List Bool) : Option (Nat × List Bool) := getIndex true list

variable (i : Nat)

def returnWsClientIndex (list : List Bool) : List Bool := list.set i true

/-- In `sessionList` false marks a free slot. -/
def getDataSessionIndex (list : List Bool) : Option (Nat × List Bool) := getIndex false list

def returnDataSessionIndex (list : List Bool) : List Bool := list.set i false

/-- The slot is taken before the request is looked at. -/
def appClientHandler (request : Request) (pool : Pool) : Pool :=
  match getWsClientIndex pool.list with
  | none => pool
  | some (i, list) =>
    match request with
    | .upgrade => ⟨list, i :: pool.running⟩
    | .plain | .failedUpgrade => { pool with list }

/-- An error ends `frontendWSAppSession`; `backendWSAppSession` goes on. -/
def frontendWSAppSession (failure : Failure) (pool : Pool) : Pool :=
  match failure with
  | .read => ⟨returnWsClientIndex i pool.list, pool.running.erase i⟩
  | .write => pool

/-- `makeServerHandler` of the file transfer. -/
def serverHandler (request : Request) (pool : Pool) : Pool :=
  match request with
  | .upgrade =>
    match getDataSessionIndex pool.list with
    | none => pool
    | some (i, list) => ⟨list, i :: pool.running⟩
  | .plain | .failedUpgrade => pool

/-- Both errors end it, but only the first gives the slot back. -/
def dataSession (failure : Failure) (pool : Pool) : Pool :=
  match failure with
  | .read => ⟨returnDataSessionIndex i pool.list, pool.running.erase i⟩
  | .write => { pool with running := pool.running.erase i }

inductive Server
  | ws
  | ft

inductive Event
  | request (request : Request)
  | error (i : Nat) (failure : Failure)

/-- An error is one of a session that runs. -/
def poolMachine (server : Server) : Machine Pool Event Unit where
  init pool := match server with
    | .ws => pool = { list := .replicate Clients.numOfClients true }
    | .ft => pool = { list := .replicate FileTransfer.maxSessions false }
  step pool event := match server, event with
    | .ws, .request request => some (appClientHandler request pool, ())
    | .ft, .request request => some (serverHandler request pool, ())
    | .ws, .error i failure =>
      if i ∈ pool.running then some (frontendWSAppSession i failure pool, ()) else none
    | .ft, .error i failure =>
      if i ∈ pool.running then some (dataSession i failure pool, ()) else none

def Pool.taken (pool : Pool) : Server → List Bool
  | .ws => pool.list.map not
  | .ft => pool.list

/-- As many slots are taken as sessions run. -/
def Pool.Balanced (server : Server) (pool : Pool) : Prop :=
  (pool.taken server).count true = pool.running.length

/-- A slot is taken for no session, or kept after one. -/
def Leaks (pool : Pool) : Server → Event → Prop
  | .ws, .request request => request ≠ .upgrade ∧ true ∈ pool.list
  | .ft, .error _ .write => True
  | _, _ => False

variable {server : Server} {pool pool' : Pool} {i : Nat} {list list' : List Bool} {event : Event}

/-- Every session has a slot of its own, and no other slots are taken. -/
abbrev Pool.Seated (server : Server) (pool : Pool) : Prop := Marks (pool.taken server) pool.running

theorem getIndex_some {free : Bool} (got : getIndex free list = some (i, list')) :
    list[i]? = some free ∧ list' = list.set i !free := by
  obtain ⟨j, first, same⟩ := Option.map_eq_some_iff.mp got
  cases same
  obtain ⟨inside, here, -⟩ := findIdx?_eq_some_iff_getElem.mp first
  exact ⟨List.getElem?_eq_some_iff.mpr ⟨inside, of_decide_eq_true here⟩, rfl⟩

theorem seated_ws (seated : pool.Seated .ws) (got : getWsClientIndex pool.list = some (i, list)) :
    Pool.Seated .ws ⟨list, i :: pool.running⟩ := by
  obtain ⟨here, rfl⟩ := getIndex_some got
  change Marks ((pool.list.set i false).map not) _
  rw [map_set]
  refine claim seated ?_
  rw [getElem?_map, here]
  rfl

theorem step_settles {output : Unit} (seated : pool.Seated server)
    (taken : (poolMachine server).step pool event = some (pool', output)) :
    (Leaks pool server event ∧ ¬ pool'.Balanced server) ∨
      (¬ Leaks pool server event ∧ pool'.Seated server) := by
  cases server with
  | ws =>
    cases event with
    | request request =>
      cases taken
      rw [appClientHandler]
      split
      · next got =>
        refine .inr ⟨fun leaks => ?_, seated⟩
        have none := findIdx?_eq_none_iff.mp (Option.map_eq_none_iff.mp got)
        exact absurd (none true leaks.2) (by decide)
      · next i list got =>
        have after := seated_ws seated got
        cases request with
        | upgrade => exact .inr ⟨fun leaks => leaks.1 rfl, after⟩
        | plain | failedUpgrade =>
          have free := mem_of_getElem? (getIndex_some got).1
          refine .inl ⟨⟨nofun, free⟩, fun balanced => ?_⟩
          exact absurd (balanced.symm.trans after.count) (by simp)
    | error i failure =>
      obtain ⟨mem, same⟩ := Option.ite_none_right_eq_some.mp taken
      cases same
      cases failure with
      | read =>
        refine .inr ⟨id, ?_⟩
        change Marks ((pool.list.set i true).map not) _
        rw [map_set]
        exact free_of_mem seated mem
      | write => exact .inr ⟨id, seated⟩
  | ft =>
    cases event with
    | request request =>
      cases taken
      refine .inr ⟨id, ?_⟩
      rw [serverHandler.eq_def]
      split
      · split
        · exact seated
        · next got =>
          obtain ⟨here, rfl⟩ := getIndex_some got
          exact claim seated here
      · exact seated
      · exact seated
    | error i failure =>
      obtain ⟨mem, same⟩ := Option.ite_none_right_eq_some.mp taken
      cases same
      cases failure with
      | read => exact .inr ⟨id, free_of_mem seated mem⟩
      | write =>
        refine .inl ⟨trivial, fun balanced => ?_⟩
        have fewer : pool.running.length = (pool.running.erase i).length :=
          (count seated).symm.trans balanced
        have some := length_pos_of_mem mem
        rw [length_erase_of_mem mem] at fewer
        omega

/-- As many slots are taken as sessions run, just in case no request without a session takes a free
slot, and no file transfer fails to write. -/
theorem slots_balanced_iff {server : Server} {history : History Pool Event Unit} {pool : Pool}
    (run : Run (poolMachine server) anyStep history pool) :
    (∀ t ∈ history, t.after.Balanced server) ↔ ∀ t ∈ history, ¬ Leaks t.before server t.event := by
  refine run.forall_iff (Pool.Seated server) ?_ ?_
  · intro pool start
    cases server <;> cases start
    · exact replicate Clients.numOfClients
    · exact replicate _
  · intro t seated taken
    obtain ⟨leaks, after⟩ | ⟨tight, after⟩ := step_settles seated taken
    · exact ⟨iff_of_false after (not_not_intro leaks), fun balanced => absurd balanced after⟩
    · exact ⟨iff_of_true after.count tight, fun _ => after⟩

def plainRequest : Transition Pool Event Unit := ⟨{ list := .replicate 20 true }, .request .plain,
    { list := false :: .replicate 19 true }, ()⟩

theorem plainRequest_run : Run (poolMachine .ws) anyStep [plainRequest] plainRequest.after :=
  .step (.start _ rfl) rfl trivial

/-- Two sessions start, and the first ends. -/
theorem slots_balanced_sessions : ∃ history pool, Run (poolMachine .ws) anyStep history pool ∧
    pool.running = [1] ∧ ∀ t ∈ history, t.after.Balanced .ws := by
  have start : Run (poolMachine .ws) anyStep [] { list := .replicate 20 true } := .start _ rfl
  have first := start.fire (.request .upgrade) rfl trivial
  have second := first.fire (.request .upgrade) rfl trivial
  have ended := second.fire (.error 0 .read) rfl trivial
  refine ⟨_, _, ended, rfl, (slots_balanced_iff ended).mpr ?_⟩
  exact forall_mem_cons.mpr ⟨id, forall_mem_cons.mpr ⟨fun leaks => leaks.1 rfl,
    forall_mem_singleton.mpr fun leaks => leaks.1 rfl⟩⟩

theorem plain_request_takes_slot : ∃ history pool, Run (poolMachine .ws) anyStep history pool ∧
    pool.running = [] ∧ ¬ pool.Balanced .ws := by
  refine ⟨_, _, plainRequest_run, rfl, ?_⟩
  unfold Pool.Balanced
  decide

end Vissr.Transport.SessionPool
