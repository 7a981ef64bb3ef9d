import Vissr.ServiceMgr.Sessions

/-! The close signals of the curve logs: one variable, `closeClSubId`, for all capture threads. -/

namespace Vissr.ServiceMgr.Sessions

open Json Option List

def State.LiveOrphan (s : State) (thread : CaptureThread) : Prop :=
  thread ∈ s.threads ∧ thread.live = true ∧ thread.orphaned = true

/-- Every such thread is told to end in its next round. -/
def Signalled (s : State) : Prop :=
  ∀ thread, s.LiveOrphan thread → s.mgr.closeClSubId = thread.subscriptionId

def clears (clPack : CLPack) (mgr : Manager) : Bool :=
  match subscriptionOf clPack.subscriptionId mgr with
  | none => true
  | some subscription =>
    decide (clPack.subscriptionId = mgr.closeClSubId ∧ subscription.subscriptionThreads - 1 = 0)

def written (s : State) (event : Event) : Option Int :=
  match removed s event with
  | some subscription =>
    if getOpType subscription.filterList "timebased" then none
    else if getOpType subscription.filterList "curvelog" then some subscription.subscriptionId
    else none
  | none =>
    match s.doing, event with
    | .select, .notification _ =>
      match receivePack s.mgr with
      | some (clPack, mgr) => if clears clPack mgr then some (-1) else none
      | none => none
    | _, _ => none

/-- The signal is written over only when no other thread has still to see it, and goes with its
running threads. -/
structure KeepsSignals (s : State) (event : Event) : Prop where
  overwrites : ∀ id ∈ written s event, ∀ thread, s.LiveOrphan thread → thread.subscriptionId = id
  signals : ∀ subscription ∈ removed s event, (∃ thread ∈ s.threads, thread.live = true ∧
      thread.subscriptionId = subscription.subscriptionId) →
    written s event = some subscription.subscriptionId ∨
      s.mgr.closeClSubId = subscription.subscriptionId

variable {s s' : State} {event : Event}

theorem closeClSubId_stopSubscription (sub : SubscriptionState) (mgr : Manager) :
    (stopSubscription sub mgr).closeClSubId =
      if getOpType sub.filterList "timebased" then mgr.closeClSubId
      else if getOpType sub.filterList "curvelog" then sub.subscriptionId
      else mgr.closeClSubId := by
  rw [stopSubscription]
  split_ifs
  · rw [deactivateInterval]
    split <;> rfl
  · rfl
  · rfl

/-- A subscription is removed, or the threads stay, or no thread is orphaned. -/
def Follows (s : State) (event : Event) (s' : State) : Prop :=
  s'.mgr.closeClSubId = (written s event).getD s.mgr.closeClSubId ∧
    ((∃ subscription, removed s event = some subscription ∧
        s'.threads = orphan subscription.subscriptionId s.threads) ∨
      (removed s event = none ∧ s'.threads = s.threads) ∨
      removed s event = none ∧ written s event = none ∧ ∀ thread, s'.LiveOrphan thread →
        ∃ before, s.LiveOrphan before ∧ before.subscriptionId = thread.subscriptionId)

theorem removed_of_busy (busy : s.doing.isIdle = false) : removed s event = none := by
  rw [removed, deactivated.eq_def]
  split
  · next resting => rw [resting] at busy; cases busy
  · next resting => rw [resting] at busy; cases busy
  · next killing => rw [killing] at busy; cases busy
  · rfl

theorem removed_of_other (other : event.isLoop = false) : removed s event = none := by
  rw [removed, deactivated.eq_def]
  split
  · cases other
  · cases other
  · cases other
  · rfl

theorem follows_kept (kept : removed s event = none) (other : ∀ env, event ≠ .notification env)
    (close : s'.mgr.closeClSubId = s.mgr.closeClSubId) (threads : ∀ thread, s'.LiveOrphan thread →
      ∃ before, s.LiveOrphan before ∧ before.subscriptionId = thread.subscriptionId) :
    Follows s event s' := by
  have quiet : written s event = none := by
    rw [written, kept]
    intro env _ same
    exact other env same
  rw [Follows, quiet]
  exact ⟨close, .inr (.inr ⟨kept, rfl, threads⟩)⟩

theorem liveOrphan_of_threads (threads : s'.threads = s.threads) (thread : CaptureThread)
    (orphan : s'.LiveOrphan thread) :
    ∃ before, s.LiveOrphan before ∧ before.subscriptionId = thread.subscriptionId := by
  rw [State.LiveOrphan, threads] at orphan
  exact ⟨thread, orphan, rfl⟩

variable {thread : CaptureThread}

theorem liveOrphan_setThread {i : Nat} {next : CaptureThread}
    (before : s.threads[i]? = some thread) (threads : s'.threads = s.threads.set i next)
    (running : thread.live = true)
    (same : next.subscriptionId = thread.subscriptionId ∧ next.orphaned = thread.orphaned)
    (other : CaptureThread) (orphan : s'.LiveOrphan other) :
    ∃ earlier, s.LiveOrphan earlier ∧ earlier.subscriptionId = other.subscriptionId := by
  obtain ⟨mem, live, orphaned⟩ := orphan
  rw [threads] at mem
  obtain mem | rfl := mem_or_eq_of_mem_set mem
  · exact ⟨other, ⟨mem, live, orphaned⟩, rfl⟩
  · rw [same.2] at orphaned
    exact ⟨thread, ⟨mem_of_getElem? before, running, orphaned⟩, same.1.symm⟩

theorem written_notification {env : Env} {clPack : CLPack} {mgr : Manager}
    (resting : s.doing = .select) (received : receivePack s.mgr = some (clPack, mgr)) :
    written s (.notification env) = if clears clPack mgr then some (-1) else none := by
  have kept : removed s (.notification env) = none := removed_of_other rfl
  simp only [written, kept, resting, received]

theorem closeClSubId_receivePack {clPack : CLPack} {mgr mgr' : Manager}
    (received : receivePack mgr = some (clPack, mgr')) : mgr'.closeClSubId = mgr.closeClSubId := by
  rw [receivePack] at received
  split at received
  · cases received
  · cases received
    rfl

theorem follows_dispatch {env : Env} (busy : s.doing.isIdle = false)
    (close : s'.mgr.closeClSubId = s.mgr.closeClSubId) (threads : s'.threads = s.threads) :
    Follows s (.proceed env) s' :=
  follows_kept (removed_of_busy busy) nofun close (liveOrphan_of_threads threads)

theorem step_follows (taken : s.step event = some s') : Follows s event s' := by
  cases taken_of_step taken with
  | passed _ _ _ _ loop _ kept =>
    apply follows_kept kept _ rfl (liveOrphan_of_threads rfl)
    rintro env rfl
    cases loop
  | subscribed _ _ resting =>
    refine follows_kept ?_ (by simp) rfl (liveOrphan_of_threads rfl)
    simp only [removed, deactivated, resting, bind_none]
  | ended _ _ _ _ _ _ gone =>
    refine ⟨?_, .inl ⟨_, gone, rfl⟩⟩
    simp only [written, gone, closeClSubId_stopSubscription]
    split_ifs <;> rfl
  | unknown resting received missed =>
    refine ⟨?_, .inr (.inl ⟨removed_of_other rfl, rfl⟩)⟩
    simp only [written_notification resting received, clears, missed, if_true, getD_some]
  | counted _ resting received found _ last ends =>
    refine ⟨?_, .inr (.inl ⟨removed_of_other rfl, rfl⟩)⟩
    simp only [written_notification resting received, clears, found, ← ends]
    rw [← closeClSubId_receivePack received]
    split_ifs <;> rfl
  | skipped _ doing | started _ _ doing | refused doing | allocated doing =>
    exact follows_dispatch (by rw [doing]; rfl) rfl rfl
  | planned doing =>
    refine follows_dispatch (by rw [doing]; rfl) ?_ rfl
    simp only [setSubscriptionListThreads]
    split <;> rfl
  | launched doing =>
    refine follows_kept (removed_of_busy (by rw [doing]; rfl)) (by simp) rfl ?_
    rintro thread ⟨mem, live, orphaned⟩
    obtain mem | fresh := mem_append.mp mem
    · exact ⟨thread, ⟨mem, live, orphaned⟩, rfl⟩
    · rw [mem_singleton.mp fresh] at orphaned
      cases orphaned
  | round _ found running | finished found running | sent found running =>
    exact follows_kept (removed_of_other rfl) (by simp) rfl
      (liveOrphan_setThread found rfl running ⟨rfl, rfl⟩)
  | _ => exact follows_kept (removed_of_other rfl) (by simp) rfl (liveOrphan_of_threads rfl)

theorem written_of_removed {sub : SubscriptionState} {id : Int}
    (gone : removed s event = some sub) (wrote : written s event = some id) :
    id = sub.subscriptionId := by
  simp only [written, gone] at wrote
  split_ifs at wrote
  exact (some.inj wrote).symm

variable (subscriptionId : Int)

def marked (thread : CaptureThread) : CaptureThread :=
  if thread.subscriptionId = subscriptionId then { thread with orphaned := true } else thread

theorem marked_subscriptionId (thread : CaptureThread) :
    (marked subscriptionId thread).subscriptionId = thread.subscriptionId := by
  rw [marked]
  split_ifs <;> rfl

theorem marked_live (thread : CaptureThread) :
    (marked subscriptionId thread).live = thread.live := by
  rw [marked]
  split_ifs <;> rfl

theorem marked_orphaned (thread : CaptureThread) : (marked subscriptionId thread).orphaned =
      (decide (thread.subscriptionId = subscriptionId) || thread.orphaned) := by
  rw [marked]
  split_ifs with same <;> simp [same]

theorem liveOrphan_orphan {subId : Int}
    (threads : s'.threads = orphan subId s.threads) :
    s'.LiveOrphan thread ↔ ∃ before ∈ s.threads, marked subId before = thread ∧
      before.live = true ∧ (before.subscriptionId = subId ∨ before.orphaned = true) := by
  have members : thread ∈ s'.threads ↔ ∃ before ∈ s.threads, marked subId before = thread := by
    rw [threads]
    exact mem_map
  rw [State.LiveOrphan, members]
  constructor
  · rintro ⟨⟨before, mem, rfl⟩, live, orphaned⟩
    rw [marked_live] at live
    rw [marked_orphaned, Bool.or_eq_true, decide_eq_true_eq] at orphaned
    exact ⟨before, mem, rfl, live, orphaned⟩
  · rintro ⟨before, mem, rfl, live, orphaned⟩
    rw [marked_live, marked_orphaned, Bool.or_eq_true, decide_eq_true_eq]
    exact ⟨⟨before, mem, rfl⟩, live, orphaned⟩

theorem KeepsSignals.kept (keeps : KeepsSignals s event) (before : Signalled s)
    (orphan : s.LiveOrphan thread) :
    (written s event).getD s.mgr.closeClSubId = thread.subscriptionId := by
  cases wrote : written s event with
  | none => exact before thread orphan
  | some id => exact (keeps.overwrites id wrote thread orphan).symm

theorem signalled_step_iff (follows : Follows s event s') (before : Signalled s) :
    Signalled s' ↔ KeepsSignals s event := by
  rcases follows with ⟨close, ⟨sub, gone, threads⟩ | ⟨stays, threads⟩ |
    ⟨stays, quiet, threads⟩⟩
  · constructor
    · intro after
      constructor
      · intro id wrote thread orphan
        have signalled := after (marked sub.subscriptionId thread)
          ((liveOrphan_orphan threads).mpr
            ⟨thread, orphan.1, rfl, orphan.2.1, .inr orphan.2.2⟩)
        rw [close, mem_def.mp wrote, marked_subscriptionId] at signalled
        exact signalled.symm
      · rintro other known ⟨thread, mem, live, same⟩
        cases gone.symm.trans known
        have signalled := after (marked sub.subscriptionId thread)
          ((liveOrphan_orphan threads).mpr ⟨thread, mem, rfl, live, .inl same⟩)
        rw [close, marked_subscriptionId, same] at signalled
        cases wrote : written s event with
        | none =>
          rw [wrote] at signalled
          exact .inr signalled
        | some =>
          rw [wrote] at signalled
          exact .inl (congrArg some signalled)
    · intro keeps thread orphan
      obtain ⟨thread, mem, rfl, live, cases⟩ := (liveOrphan_orphan threads).mp orphan
      rw [close, marked_subscriptionId]
      obtain same | orphaned := cases
      · obtain wrote | already := keeps.signals sub gone ⟨thread, mem, live, same⟩
        · rw [wrote, same]
          rfl
        · cases wrote : written s event with
          | none => rw [getD_none, already, same]
          | some => rw [getD_some, written_of_removed gone wrote, same]
      · exact keeps.kept before ⟨mem, live, orphaned⟩
  · constructor
    · intro after
      constructor
      · intro id wrote thread orphan
        have signalled := after thread (by rwa [State.LiveOrphan, threads])
        rw [close, mem_def.mp wrote] at signalled
        exact signalled.symm
      · intro sub known
        rw [stays] at known
        cases known
    · intro keeps thread orphan
      rw [State.LiveOrphan, threads] at orphan
      rw [close]
      exact keeps.kept before orphan
  · constructor
    · intro _
      constructor
      · intro id wrote
        rw [quiet] at wrote
        cases wrote
      · intro sub known
        rw [stays] at known
        cases known
    · intro _ thread orphan
      obtain ⟨earlier, was, same⟩ := threads thread orphan
      rw [close, quiet, getD_none, before earlier was, same]

theorem signalled_start : Signalled {} := by
  rintro thread ⟨mem, -⟩
  cases mem

/-- The threads of removed subscriptions are told to end if and only if every step keeps the
signals. -/
theorem close_signals_iff {history : History State Event Unit}
    (run : Run sessionMachine anyStep history s) :
    (∀ t ∈ history, Signalled t.after) ↔ ∀ t ∈ history, KeepsSignals t.before t.event := by
  refine Run.forall_iff Signalled ?_ ?_ run
  · rintro s rfl
    exact signalled_start
  · intro t before taken
    exact ⟨signalled_step_iff (step_follows (step_of_taken taken)) before, id⟩

theorem signalled_iff : Signalled s ↔ ∀ thread ∈ s.threads, thread.live = true →
    thread.orphaned = true → s.mgr.closeClSubId = thread.subscriptionId :=
  ⟨fun signalled thread mem live orphaned => signalled thread ⟨mem, live, orphaned⟩,
    fun all thread orphan => all thread orphan.1 orphan.2.1 orphan.2.2⟩

instance (s : State) : Decidable (Signalled s) := decidable_of_iff _ signalled_iff.symm

def oneCurveLog : Map Value := request "subscribe"
    [("path", .str "Vehicle.Speed"),
      ("filter", .obj [("variant", .str "curvelog"), ("parameter", .str [])])]

def subscribing : List Event :=
  .subscribe sampleEnv oneCurveLog :: replicate 7 (.proceed sampleEnv) ++ [.route]

def unsubscribing (subscriptionId : Str) : List Event :=
  [.unsubscribe (request "unsubscribe" [("subscriptionId", .str subscriptionId)]),
    .proceed sampleEnv]

/-- A curve log is removed, and its running thread is told to end. -/
theorem close_signals_one_log : ∃ history s, Run sessionMachine anyStep history s ∧
    (∃ thread, s.LiveOrphan thread) ∧ ∀ t ∈ history, KeepsSignals t.before t.event := by
  rcases Run.of_exec sessionMachine {} rfl (subscribing ++ unsubscribing "1")
    (fun history s => (∀ t ∈ history, Signalled t.after) ∧
      ∃ thread ∈ s.threads, thread.live = true ∧ thread.orphaned = true)
    (by decide +kernel) with ⟨history, s, run, signalled, orphan⟩
  exact ⟨history, s, run, orphan, (close_signals_iff run).mp signalled⟩

/-- The signal for the first of two curve logs is written over before its thread has seen it. -/
theorem close_signal_lost : ∃ history s, Run sessionMachine anyStep history s ∧
    ¬ Signalled s ∧ ∃ thread ∈ s.threads, thread.orphaned = true ∧
      thread.closeClSession = false ∧ thread.subscriptionId ≠ s.mgr.closeClSubId := by
  exact Run.of_exec sessionMachine {} rfl
    (subscribing ++ subscribing ++ unsubscribing "1" ++ unsubscribing "2") _ (by decide +kernel)

end Vissr.ServiceMgr.Sessions
