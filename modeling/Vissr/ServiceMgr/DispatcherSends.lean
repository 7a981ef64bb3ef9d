import Vissr.ServiceMgr.TriggChannels

/-! The sends of the dispatcher on `CLChannel`, of which its own loop is the only receiver. -/

namespace Vissr.ServiceMgr.Sessions

open Json Option List

def State.packs (s : State) : Nat := s.mgr.clChannel.packs.length

/-- The first point of a session is still to be sent. -/
def Doing.pending : Doing → Nat
  | .sending .. => 1
  | _ => 0

def State.Blocked (s : State) : Prop := s.doing.pending = 1 ∧ s.packs = clCapacity
  deriving Decidable

def grantedBy (s : State) (event : Event) : Nat :=
  match s.doing, event with
  | .allocating .., .proceed _ => if (allocateTriggChannelIndex s.mgr).isSome then 1 else 0
  | _, _ => 0

def sentBy (s : State) (event : Event) : Nat :=
  match event with
  | .advance i =>
    match (s.threads[i]?).map CaptureThread.stage with
    | some (.sending (_ :: _)) => 1
    | _ => 0
  | _ => 0

variable {s s' : State} {event : Event}

theorem packs_sendTo (pack : CLPack) (mgr : Manager)
    (room : mgr.clChannel.packs.length < clCapacity) :
    (sendTo pack mgr room).clChannel.packs.length = mgr.clChannel.packs.length + 1 :=
  (sendClPack_room pack room).2

theorem grantedBy_eq_zero (other : ∀ env, event ≠ .proceed env) : grantedBy s event = 0 := by
  rw [grantedBy]
  intro _ _ _ _ env _ same
  exact other env same

/-- The packs in the channel and the one to be sent grow by one for each session and for each pack
of a thread. -/
def Demands (s : State) (event : Event) (s' : State) : Prop :=
  s'.packs + s'.doing.pending = s.packs + s.doing.pending + grantedBy s event + sentBy s event

theorem Doing.pending_idle {doing : Doing} (idle : doing.isIdle = true) : doing.pending = 0 := by
  cases doing with
  | sending => cases idle
  | _ => rfl

theorem demands_kept (granted : grantedBy s event = 0) (sent : sentBy s event = 0)
    (packs : s'.mgr.clChannel = s.mgr.clChannel)
    (pending : s'.doing.pending = s.doing.pending) : Demands s event s' := by
  rw [Demands, granted, sent, pending, State.packs, packs]
  rfl

theorem demands_idle (idle : s.doing.isIdle = true) (loop : event.isLoop = true)
    (pending : s'.doing.pending = 0) (packs : s'.mgr.clChannel = s.mgr.clChannel) :
    Demands s event s' := by
  apply demands_kept _ _ packs
  · rw [pending, Doing.pending_idle idle]
  · rw [grantedBy.eq_def]
    split
    · next allocating => rw [allocating] at idle; cases idle
    · rfl
  · cases event with
    | advance => cases loop
    | _ => rfl

theorem step_demands (taken : s.step event = some s') (other : ∀ env, event ≠ .notification env) :
    Demands s event s' := by
  have inverted := taken_of_step taken
  clear taken
  obtain ⟨mgr, doing, threads, messages, routingDataList, releasing, decrements⟩ := s
  cases inverted with
  | passed _ _ idle next loop => exact demands_idle idle loop (Doing.pending_idle next) rfl
  | subscribed _ _ resting _ next =>
    cases resting
    obtain next | ⟨_, _, rfl⟩ := next
    · exact demands_idle rfl rfl (Doing.pending_idle next) rfl
    · rfl
  | ended _ _ idle next loop =>
    exact demands_idle idle loop (Doing.pending_idle next)
      (sessions_stopSubscription _ mgr).clChannel
  | unknown | counted => exact absurd rfl (other _)
  | skipped _ doing | started _ _ doing | routed doing =>
    cases doing
    rfl
  | planned doing =>
    cases doing
    exact demands_kept rfl rfl (sessions_setThreads _ _ mgr).clChannel rfl
  | refused doing full =>
    cases doing
    simp only [Demands, grantedBy, full]
    rfl
  | allocated doing granted =>
    cases doing
    simp only [Demands, grantedBy, granted]
    rfl
  | launched doing room =>
    cases doing
    exact packs_sendTo _ _ room
  | finished found _ sending =>
    refine demands_kept (grantedBy_eq_zero (by simp)) ?_ rfl rfl
    simp only [sentBy, found, map_some, sending]
  | @sent i _ _ _ found _ sending room =>
    have granted : grantedBy ⟨mgr, doing, threads, messages, routingDataList, releasing,
        decrements⟩ (.advance i) = 0 := grantedBy_eq_zero (by simp)
    rw [Demands, granted]
    simp only [sentBy, found, map_some, sending]
    rw [State.packs, packs_sendTo, State.packs]
    exact Nat.add_right_comm _ _ _
  | _ => exact demands_kept (grantedBy_eq_zero (by simp)) rfl rfl rfl

section Dispatch

/-- A subscribe request until the loop is back at its select, with all that others do meanwhile. -/
def dispatchMachine (before : State) (env : Env) (requestMap : Map Value) :
    Machine State Event Unit where
  init s := before.step (.subscribe env requestMap) = some s
  step s event :=
    match s.doing with
    | .select => none
    | _ => (s.step event).map fun after => (after, ())

variable (history : History State Event Unit)

def granted : Nat := (history.map fun t => grantedBy t.before t.event).sum

def sentByThreads : Nat := (history.map fun t => sentBy t.before t.event).sum

variable {s s' before : State} {event : Event} {env : Env} {requestMap : Map Value}
  {history : History State Event Unit}

theorem pending_le (doing : Doing) : doing.pending ≤ 1 := by
  cases doing <;> exact Nat.le_of_ble_eq_true rfl

theorem packs_le (s : State) : s.packs ≤ clCapacity := s.mgr.clChannel.bounded

theorem dispatch_step {t : Transition State Event Unit}
    (taken : (dispatchMachine before env requestMap).step t.before t.event =
      some (t.after, t.output)) :
    t.before.doing ≠ .select ∧ t.before.step t.event = some t.after := by
  simp only [dispatchMachine] at taken
  split at taken
  · cases taken
  · next busy => exact ⟨busy, step_of_taken taken⟩

theorem not_notification (busy : s.doing ≠ .select) (taken : s.step event = some s') (env : Env) :
    event ≠ .notification env := by
  rintro rfl
  cases taken_of_step taken with
  | passed _ _ _ _ loop | ended _ _ _ _ loop => cases loop
  | unknown resting | counted _ resting => exact busy resting

theorem dispatch_demand (run : Run (dispatchMachine before env requestMap) anyStep history s) :
    s.packs + s.doing.pending = before.packs + granted history + sentByThreads history := by
  apply run.invariant fun history s =>
    s.packs + s.doing.pending = before.packs + granted history + sentByThreads history
  · intro s begins
    have demands := step_demands begins nofun
    have grants : grantedBy before (.subscribe env requestMap) = 0 := grantedBy_eq_zero nofun
    have idle : before.doing.pending = 0 := by
      cases taken_of_step begins with
      | passed _ _ idle | ended _ _ idle => exact Doing.pending_idle idle
      | subscribed _ _ resting => rw [resting]; rfl
    rw [Demands, idle, grants] at demands
    exact demands
  · intro history t earlier taken _
    obtain ⟨busy, stepped⟩ := dispatch_step taken
    have demands := step_demands stepped (not_notification busy stepped)
    rw [Demands] at demands
    simp only [granted, sentByThreads, map_cons, sum_cons] at earlier ⊢
    omega

/-- The dispatcher does not block if and only if the packs at the start, the sessions of the request
and the packs of the threads since then fit into the channel. -/
theorem dispatcher_not_blocked_iff
    (run : Run (dispatchMachine before env requestMap) anyStep history s) :
    ¬ s.Blocked ↔ before.packs + granted history + sentByThreads history ≤ clCapacity := by
  rw [← dispatch_demand run, State.Blocked]
  have bounded := packs_le s
  have one := pending_le s.doing
  omega

def taking (requestMap : Map Value)
    (enabled : (({} : State).step (.subscribe sampleEnv requestMap)).isSome = true) : State :=
  (({} : State).step (.subscribe sampleEnv requestMap)).get enabled

theorem oneCurveLog_taken :
    (({} : State).step (.subscribe sampleEnv oneCurveLog)).isSome = true := by
  decide +kernel

theorem sixCurveLogs_taken :
    (({} : State).step (.subscribe sampleEnv sixCurveLogs)).isSome = true := by
  decide +kernel

theorem dispatcher_not_blocked_one : ∃ history s,
    Run (dispatchMachine {} sampleEnv oneCurveLog) anyStep history s ∧ s.doing.pending = 1 ∧
      ¬ s.Blocked := by
  rcases Run.of_exec (dispatchMachine {} sampleEnv oneCurveLog) (taking oneCurveLog oneCurveLog_taken)
    (some_get oneCurveLog_taken).symm (replicate 2 (.proceed sampleEnv))
    (fun history s => s.doing.pending = 1 ∧
      State.packs {} + granted history + sentByThreads history ≤ clCapacity)
    (by decide +kernel) with ⟨history, s, run, at_send, fits⟩
  exact ⟨history, s, run, at_send, (dispatcher_not_blocked_iff run).mpr fits⟩

/-- The dispatcher is blocked at the last of six curve logs, though the channel was empty. -/
theorem dispatcher_blocked_six : ∃ history s,
    Run (dispatchMachine {} sampleEnv sixCurveLogs) anyStep history s ∧
      sentByThreads history = 0 ∧ s.Blocked := by
  exact Run.of_exec (dispatchMachine {} sampleEnv sixCurveLogs)
    (taking sixCurveLogs sixCurveLogs_taken) (some_get sixCurveLogs_taken).symm
    (replicate 17 (.proceed sampleEnv)) _ (by decide +kernel)

end Dispatch

end Vissr.ServiceMgr.Sessions
