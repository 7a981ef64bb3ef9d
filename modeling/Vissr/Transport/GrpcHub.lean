import Vissr.Transport.GrpcCalls

/-! When the hub of the gRPC manager waits for a call that has ended. -/

namespace Vissr.Transport.Grpc

open Option List

variable (s : State)

def State.isReturned (i : Nat) : Bool := (s.calls[i]?).any fun call => call.stage = .returned

def State.sendsTo (i : Nat) : Bool :=
  match s.hub with
  | .sending channel _ => channel = i
  | _ => false

/-- The hub sends on a channel that nobody will receive on. -/
def State.stuck : Bool :=
  match s.hub with
  | .sending channel _ => s.isReturned channel
  | _ => false

/-- The call that returns, but not with what the hub sends. -/
def State.ends : Event → Option Nat
  | .close i => some i
  | .sent i ok => if ok then none else some i
  | .process i =>
    match (s.calls[i]?).map Call.stage with
    | some (.received _ delivery) =>
      if classifySubscribeResponse delivery.text = (false, false) then none else some i
    | _ => none
  | .kill i =>
    match (s.calls[i]?).map Call.stage with
    | some (.killing _ channel) =>
      if (s.calls[channel]?).any fun call => call.kind = .unary then some channel else none
    | _ => none
  | _ => none

def State.turnsTo : Event → Option Nat
  | .update =>
    match s.hub with
    | .located channel _ _ _ _ => some channel
    | _ => none
  | _ => none

/-- The call the hub turns to is there, and none returns while the hub sends to it. -/
def KeepsReceiver (event : Event) : Prop :=
  (∀ i ∈ s.turnsTo event, s.isReturned i = false) ∧ ∀ i ∈ s.ends event, s.sendsTo i = false
  deriving Decidable

variable {s s' : State} {event : Event}

theorem stuck_eq_false : s.stuck = false ↔ ∀ i, s.sendsTo i = true → s.isReturned i = false := by
  rw [State.stuck.eq_def]
  simp only [State.sendsTo.eq_def]
  cases s.hub with
  | sending | idle | allocated | located => simp

theorem stuck_of_not_sending (silent : ∀ i, s.sendsTo i = false) : s.stuck = false := by
  rw [stuck_eq_false]
  intro i sends
  rw [silent i] at sends
  cases sends

variable {i : Nat} {call next : Call}

theorem isReturned_set (here : s.calls[i]? = some call) (changed : s'.calls = s.calls.set i next)
    (j : Nat) :
    s'.isReturned j = if i = j then decide (next.stage = .returned) else s.isReturned j := by
  rw [State.isReturned, changed]
  by_cases same : i = j
  · subst same
    rw [List.getElem?_set_self (List.getElem?_eq_some_iff.mp here).1, if_pos rfl]
    rfl
  · rw [getElem?_set_ne same, if_neg same, State.isReturned]

theorem stuck_set_iff (free : s.stuck = false) (here : s.calls[i]? = some call) (tables : Tables) :
    ({ s with tables, calls := s.calls.set i next } : State).stuck = false ↔
      (next.stage = .returned → s.sendsTo i = false) := by
  rw [stuck_eq_false] at free ⊢
  have returned (j : Nat) :
      ({ s with tables, calls := s.calls.set i next } : State).isReturned j =
        if i = j then decide (next.stage = .returned) else s.isReturned j :=
    isReturned_set here rfl j
  constructor
  · intro kept ends
    by_contra sends
    have wrong := kept i (Bool.of_not_eq_false sends)
    rw [returned, if_pos rfl] at wrong
    exact of_decide_eq_false wrong ends
  · intro kept j sends
    rw [returned]
    split_ifs with same
    · apply decide_eq_false
      intro ends
      have silent := kept ends
      rw [same] at silent
      rw [show s.sendsTo j = true from sends] at silent
      cases silent
    · exact free j sends

theorem stuck_set_running (here : s.calls[i]? = some call) (running : call.stage ≠ .returned)
    (goes : next.stage ≠ .returned) :
    ({ s with calls := s.calls.set i next } : State).stuck = s.stuck := by
  rw [State.stuck.eq_def, State.stuck.eq_def]
  cases s.hub with
  | sending =>
    simp only
    rw [isReturned_set (s := s) here rfl]
    split_ifs with same
    · rw [decide_eq_false goes, State.isReturned, ← same, here, any_some,
        decide_eq_false running]
    · rfl
  | idle | allocated | located => rfl

theorem stage_of_receive {delivery : Delivery} (received : call.receive delivery = some next) :
    next.stage = .returned ↔ call.kind = .unary := by
  rw [Call.receive.eq_def] at received
  split at received
  · next kind stage =>
    cases received
    exact iff_of_true rfl kind
  · next kind stage =>
    cases received
    rw [kind]
    exact iff_of_false (by simp) (by simp)
  · cases received

theorem stuck_step_iff (free : s.stuck = false) (change : Change s event s') :
    s'.stuck = false ↔ KeepsReceiver s event := by
  have idle (silent : ∀ i, s'.sendsTo i = false) (turns : s.turnsTo event = none)
      (ends : s.ends event = none) : s'.stuck = false ↔ KeepsReceiver s event := by
    rw [KeepsReceiver, turns, ends]
    exact iff_of_true (stuck_of_not_sending silent) ⟨nofun, nofun⟩
  cases change with
  | began call fresh =>
    refine iff_of_true ?_ ⟨nofun, nofun⟩
    rw [stuck_eq_false] at free ⊢
    intro i sends
    refine (Option.any_eq_false _ _).mpr fun other there => ?_
    obtain there | ⟨-, rfl⟩ := getElem?_concat_cases there
    · exact (Option.any_eq_false _ _).mp (free i sends) other there
    · refine decide_eq_false fun returned => ?_
      rw [Call.begins, returned] at fresh
      cases fresh
  | @moved _ stage i call here moves =>
    rw [State.setStage, stuck_set_iff free here s.tables, KeepsReceiver]
    cases moves with
    | missed | found | gaveUp | done | sent => exact iff_of_true nofun ⟨nofun, nofun⟩
    | @failed id delivery stage isError =>
      have ends : s.ends (.process i) = some i := by
        simp only [State.ends, here, map_some, stage]
        rw [if_neg]
        intro plain
        rw [plain] at isError
        cases isError
      rw [ends]
      simp [State.turnsTo]
    | @learned id delivery stage plain known =>
      have ends : s.ends (.process i) = none := by
        simp only [State.ends, here, map_some, stage, plain, if_true]
      rw [ends]
      exact iff_of_true nofun ⟨nofun, nofun⟩
  | freed i call here frees tables =>
    have ends : s.ends event = some i := by
      cases frees with
      | close => rfl
      | process stage isKill =>
        simp only [State.ends, here, map_some, stage, isKill]
        rfl
      | sent => rfl
    have turns : s.turnsTo event = none := by
      cases frees <;> rfl
    rw [State.setStage, stuck_set_iff free here tables, KeepsReceiver, ends, turns]
    simp
  | killed i call clientId channel other next here stage there received =>
    have middle := killed_middle here stage there received
    have ends : s.ends (.kill i) = if other.kind = .unary then some channel else none := by
      simp only [State.ends, here, map_some, stage, there, any_some,
        decide_eq_true_eq]
    rw [@stuck_set_running _ i call { call with stage := .requesting } middle
        (by rw [stage]; nofun) nofun,
      stuck_set_iff free there s.tables, stage_of_receive received, KeepsReceiver, ends]
    split_ifs with unary
    · simp [State.turnsTo, unary]
    · exact iff_of_true (fun isUnary => absurd isUnary unary) ⟨nofun, nofun⟩
  | took i call hubIdle here =>
    refine iff_of_true ?_ ⟨nofun, nofun⟩
    have inside := (List.getElem?_eq_some_iff.mp here).1
    rw [State.stuck]
    split
    · next channel delivery sends =>
      simp only at sends
      split_ifs at sends
      cases sends
      rw [State.isReturned, getElem?_set_self inside]
      rfl
    · rfl
  | entered | located | delivered => exact idle (fun _ => rfl) rfl rfl
  | unknown => exact iff_of_true free ⟨nofun, nofun⟩
  | updated channel multiple clientId response delivery tables hub =>
    rw [KeepsReceiver]
    simp [State.turnsTo, State.ends, hub, State.stuck, State.isReturned]

/-- The hub is never stuck just in case every step keeps the receiver. -/
theorem hub_never_stuck_iff {history : History State Event Unit}
    (run : Run callMachine anyStep history s) : (∀ t ∈ history, t.after.stuck = false) ↔
      ∀ t ∈ history, KeepsReceiver t.before t.event := by
  refine Run.forall_iff (fun s => s.stuck = false) ?_ ?_ run
  · rintro s rfl
    rfl
  · intro t free taken
    exact ⟨stuck_step_iff free (step_change (step_of_taken taken)), id⟩

def streaming : List Event :=
  [.begin ⟨.stream, "\x7b\"action\":\"subscribe\",\"path\":\"Vehicle.Speed\"\x7d",
      .requesting⟩,
    .take 0, .enter,
    .locate "\x7b\"RouterId\":\"3?0\",\"action\":\"subscribe\",\"subscriptionId\":\"7\"\x7d"
      0 false,
    .update, .deliver, .process 0, .sent 0 true]

def eventLocated : Event :=
  .locate "\x7b\"RouterId\":\"3?0\",\"action\":\"subscription\",\"subscriptionId\":\"7\"\x7d"
    0 false

theorem hub_not_stuck_streaming : ∃ history s, Run callMachine anyStep history s ∧
    history.length = 11 ∧ ∀ t ∈ history, t.after.stuck = false := by
  rcases Run.of_exec callMachine {} rfl (streaming ++ [eventLocated, .update, .deliver])
      (fun history _ => history.length = 11 ∧ ∀ t ∈ history, KeepsReceiver t.before t.event)
      (by decide +kernel) with ⟨history, s, run, all, keeps⟩
  exact ⟨history, s, run, all, (hub_never_stuck_iff run).mpr keeps⟩

/-- The client leaves between the lookup of the entry and the send. -/
theorem hub_stuck_after_disconnect : ∃ history s, Run callMachine anyStep history s ∧
    s.stuck = true := by
  exact Run.of_exec callMachine {} rfl
    (streaming ++ [eventLocated, .done 0, .close 0, .update]) _ (by decide +kernel)

end Vissr.Transport.Grpc
