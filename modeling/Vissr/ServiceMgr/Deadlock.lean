import Vissr.ServiceMgr.DataServer
import Vissr.ServiceMgr.Messages

/-! Requests and notifications that wait for each other on `dataChan` and `backendChan`. -/

namespace Vissr.ServiceMgr

open Json Option List Act

/-- The other of the two is the only receiver either of them could have. -/
def Deadlocked (s : System) : Prop :=
  (∃ requestMap, s.server = .sending requestMap) ∧ s.loop.WaitsAt Effect.IsNotification

/-- No subscription for the path, or none on a tick, has a filter that is met. -/
def Unmet (env : Env) (triggeredPath : Str) (subscriptionList : List SubscriptionState) : Prop :=
  ∀ subscription ∈ subscriptionList, ∀ first ∈ subscription.path.head?,
    triggeredPath = [] ∨ triggeredPath = first →
      (checkRangeChangeFilter env subscription.latestDataPoint first
        subscription.filterList).1 = false

/-- The subscription of the point is gone, or is closed by it. -/
def Outlived (clPack : CLPack) (mgr : Manager) : Prop :=
  ∀ index, getSubcriptionStateIndex clPack.subscriptionId mgr.subscriptionList = some index →
    clPack.subscriptionId = mgr.closeClSubId ∧
      ∃ subscription ∈ mgr.subscriptionList[index]?, subscription.subscriptionThreads = 1

def Quiet (mgr : Manager) : Event → Prop
  | .tick env => mgr.feederNotification = false → Unmet env [] mgr.subscriptionList
  | .feeder env feederMessage =>
    Unmet env (decodeFeederMessage feederMessage mgr.feederNotification).1 mgr.subscriptionList
  | .curveLog _ => ∀ clPack ∈ mgr.clChannel.packs.head?, Outlived clPack mgr
  | _ => True

variable {env : Env} {mgr : Manager} {triggeredPath : Str}

theorem checkSubscription_unmet {sub : SubscriptionState}
    (unmet : Unmet env triggeredPath [sub]) :
    (checkSubscription env triggeredPath sub).2 = false := by
  unfold checkSubscription
  split
  · rfl
  · next first rest found =>
    split_ifs with looked
    · apply unmet sub mem_cons_self first _ looked
      rw [found]
      rfl
    · rfl

theorem checkRCFilterAndIssueMessages_avoids
    {subscriptionList : List SubscriptionState} (unmet : Unmet env triggeredPath subscriptionList) :
    (checkRCFilterAndIssueMessages env triggeredPath subscriptionList).Avoids
      Effect.IsNotification := by
  induction subscriptionList with
  | nil => exact avoids_pure _
  | cons sub rest ih =>
    have silent : (checkSubscription env triggeredPath sub).2 = false := by
      apply checkSubscription_unmet
      intro other mem
      rw [mem_singleton.mp mem]
      exact unmet sub mem_cons_self
    apply Act.Avoids.bind
    · rw [silent]
      exact avoids_pure ()
    · intro _
      apply Act.Avoids.bind
      · apply ih
        intro other mem
        exact unmet other (mem_cons_of_mem sub mem)
      · intro others
        exact avoids_pure _

theorem checkSubscriptions_avoids (unmet : Unmet env triggeredPath mgr.subscriptionList) :
    (checkSubscriptions env triggeredPath mgr).Avoids Effect.IsNotification := by
  apply Act.Avoids.bind (checkRCFilterAndIssueMessages_avoids unmet)
  intro subscriptionList
  exact avoids_pure _

theorem handleRCTick_avoids (quiet : Quiet mgr (.tick env)) :
    (handleRCTick env mgr).Avoids Effect.IsNotification := by
  unfold handleRCTick
  split_ifs with notified
  · exact avoids_pure mgr
  · apply checkSubscriptions_avoids
    exact quiet (Bool.eq_false_iff.mpr notified)

theorem handleFeederNotificationMessage_avoids {feederMessage : Str}
    (quiet : Quiet mgr (.feeder env feederMessage)) :
    (handleFeederNotificationMessage env feederMessage mgr).Avoids Effect.IsNotification :=
  checkSubscriptions_avoids quiet

theorem handleCurveLogNotification_avoids {clPack : CLPack} (outlived : Outlived clPack mgr) :
    (handleCurveLogNotification env clPack mgr).Avoids Effect.IsNotification := by
  unfold handleCurveLogNotification
  split
  · exact avoids_pure _
  · next index found =>
    obtain ⟨closing, sub, there, last⟩ := outlived index found
    have counted : (mgr.subscriptionList.modify index fun sub =>
        { sub with subscriptionThreads := sub.subscriptionThreads - 1 })[index]? =
          some { sub with subscriptionThreads := 0 } := by
      rw [getElem?_modify_eq, there]
      simp [last]
    dsimp only
    rw [counted]
    dsimp only
    rw [if_pos ⟨closing, rfl⟩]
    exact avoids_pure _

def NoNotification (s : System) : Prop := s.loop.Clear Effect.IsNotification

theorem receivePack_outlived {after : Manager} {clPack : CLPack}
    (received : receivePack mgr = some (clPack, after)) (quiet : Quiet mgr (.curveLog env)) :
    Outlived clPack after := by
  unfold receivePack at received
  split at received
  · cases received
  · next pack packs bounded channel =>
    cases received
    apply quiet
    rw [channel]
    rfl

theorem handler_avoids {s : System} {event : Event} {handler : Loop Manager}
    (quiet : Quiet s.loop.state event) (taken : s.handler event = some handler) :
    handler.Avoids Effect.IsNotification := by
  cases event with
  | handOver =>
    simp only [System.handler] at taken
    split at taken
    · cases taken
      exact handleRequest_serves.avoids
    · cases taken
  | tick =>
    cases taken
    exact handleRCTick_avoids quiet
  | feeder =>
    cases taken
    exact handleFeederNotificationMessage_avoids quiet
  | curveLog =>
    obtain ⟨⟨clPack, mgr⟩, received, rfl⟩ := map_eq_some_iff.mp taken
    exact handleCurveLogNotification_avoids (receivePack_outlived received quiet)
  | _ => cases taken

theorem step_noNotification {s s' : System} {event : Event} (clear : NoNotification s)
    (quiet : Quiet s.loop.state event) (taken : s.step event = some s') : NoNotification s' := by
  obtain same | ⟨handler, takes, _, loop⟩ | ⟨effect, _, _, loop⟩ := System.step_loop taken
  · rw [NoNotification, Process.Clear, same]
    exact clear
  · rw [NoNotification, loop]
    exact Process.clear_handle (handler_avoids quiet takes)
  · rw [NoNotification, loop]
    exact clear.advance

/-- Where every tick, feeder message and point is quiet, there is no deadlock. -/
theorem no_deadlock_of_quiet {history : History System Event Unit} {s : System}
    (run : Run machine (fun _ t => Quiet t.before.loop.state t.event) history s) :
    ¬ Deadlocked s := by
  have clear : NoNotification s := by
    apply Run.invariant (fun _ s => NoNotification s) _ _ run
    · intro s begins
      cases begins
      intro e member
      cases member
    · intro _ t clear taken quiet
      exact step_noNotification clear quiet (step_of_taken taken)
  rintro ⟨-, waits⟩
  exact clear.not_waitsAt waits

theorem Deadlocked.step {s s' : System} {event : Event} (deadlocked : Deadlocked s)
    (taken : s.step event = some s') : Deadlocked s' := by
  obtain ⟨⟨request, sending⟩, waits⟩ := deadlocked
  have busy : s.loop.resting = false := waits.not_resting
  have unselected : ∀ (server : DataServer) (handler : Loop Manager),
      System.select { s with server } handler = none := by
    intro server handler
    unfold System.select
    rw [if_neg (by simpa using busy)]
  unfold System.step at taken
  cases event with
  | handOver =>
    dsimp only at taken
    rw [sending] at taken
    dsimp only at taken
    rw [unselected] at taken
    cases taken
  | interval =>
    dsimp only at taken
    unfold System.notifyInterval at taken
    rw [if_neg (by simpa using busy)] at taken
    cases taken
  | tick | feeder => cases (unselected s.server _).symm.trans taken
  | curveLog =>
    dsimp only at taken
    split at taken
    · cases (unselected s.server _).symm.trans taken
    · cases taken
  | capture =>
    dsimp only at taken
    split_ifs at taken
    cases taken
    exact ⟨⟨request, sending⟩, waits⟩
  | release =>
    cases taken
    exact ⟨⟨request, sending⟩, waits⟩
  | proceed =>
    obtain ⟨e, head, kind⟩ := waits
    dsimp only at taken
    split at taken
    · next found =>
      rw [found] at head
      cases head
      exact kind.elim
    · next found =>
      rw [found] at head
      cases head
      exact kind.elim
    · cases taken
  | _ =>
    dsimp only at taken
    rw [sending] at taken
    cases taken

def rangeSubscription (logicOp : Str) : Map Value := request "subscribe"
    [("path", .str "Vehicle.Speed"), ("filter", .obj [("variant", .str "range"),
        ("parameter", .obj [("logic-op", .str logicOp), ("boundary", .str "0")])])]

def getSpeed : Map Value := request "get" [("path", .str "Vehicle.Speed")]

def subscribeTickGet (logicOp : Str) : List Event :=
  [.request (rangeSubscription logicOp), .handOver sampleEnv, .proceed, .respond, .forwarded,
    .tick sampleEnv, .request getSpeed]

def isDeadlocked (s : System) : Bool :=
  match s.server, s.loop.pending with
  | .sending _, .backendChan _ :: _ => true
  | _, _ => false

theorem deadlocked_of_isDeadlocked {s : System} (found : isDeadlocked s = true) : Deadlocked s := by
  unfold isDeadlocked at found
  split at found
  · next request message rest server pending =>
    refine ⟨⟨request, server⟩, .backendChan message, ?_, trivial⟩
    rw [pending]
    rfl
  · cases found

/-- A range filter is met just before a request: both processes are stuck. -/
theorem range_tick_meets_request : ∃ history s, Run machine anyStep history s ∧ Deadlocked s ∧
      ∀ event s', s.step event = some s' → Deadlocked s' := by
  obtain ⟨history, s, run, found⟩ := Run.of_exec machine {} rfl (subscribeTickGet "eq")
    (fun _ s => isDeadlocked s) (by decide +kernel)
  have deadlocked := deadlocked_of_isDeadlocked found
  exact ⟨history, s, run, deadlocked, fun _ _ taken => deadlocked.step taken⟩

/-- The same steps with a filter that is not met. -/
theorem no_deadlock_unmet_range :
    ∃ history s, Run machine (fun _ t => Quiet t.before.loop.state t.event) history s ∧
      s.loop.state.subscriptionList.length = 1 ∧ ¬ Deadlocked s := by
  have start : Run machine (fun _ t => Quiet t.before.loop.state t.event) [] {} := .start _ rfl
  have asked := start.fire (.request (rangeSubscription "ne")) rfl trivial
  have handled := asked.fire (.handOver sampleEnv) (by decide +kernel) trivial
  have told := handled.fire .proceed (by decide +kernel) trivial
  have answered := told.fire .respond (by decide +kernel) trivial
  have forwarded := answered.fire .forwarded (by decide +kernel) trivial
  have ticked := forwarded.fire (.tick sampleEnv) (by decide +kernel) (by
    show _ → ∀ subscription ∈ _, ∀ first ∈ _, _ → _
    decide +kernel)
  have requested := ticked.fire (.request getSpeed) (by decide +kernel) trivial
  exact ⟨_, _, requested, by decide +kernel, no_deadlock_of_quiet requested⟩

end Vissr.ServiceMgr
