import Vissr.Marks
import Vissr.ServiceMgr.CloseSignals

/-! Who holds the trigger channels of the curve logs, and how they are counted. -/

namespace Vissr.ServiceMgr.Sessions

open Json List Option

/-- The channels taken for the curve log that is starting, kept for those that were started, and
given back. Some sessions have none. -/
structure Books where
  channels : List Bool
  sessions : Nat
  uncovered : Nat
  taken : List Nat
  releasing : List (List Nat)
  routed : List (List Nat)

namespace Books

def held (b : Books) : List Nat := b.taken ++ b.releasing.flatten ++ b.routed.flatten

/-- The busy channels are those held, each once; every session has one or is uncovered. -/
structure Balanced (b : Books) : Prop where
  marks : Marks b.channels b.held
  counted : b.sessions = b.held.length + b.uncovered

inductive Step (b : Books) : Books → Prop
  | stay : Step b b
  | count : Step b { b with sessions := b.sessions + 1, uncovered := b.uncovered + 1 }
  | claim (i : Nat) (uncovered : Nat) (free : b.channels[i]? = some false)
      (one : b.uncovered = uncovered + 1) :
      Step b { b with channels := b.channels.set i true, taken := b.taken ++ [i], uncovered }
  | settle (uncovered : Nat) (one : b.uncovered = uncovered + 1) :
      Step b { b with sessions := b.sessions - 1, uncovered }
  | route : Step b { b with taken := [], routed := b.routed ++ [b.taken] }
  | serve (ended kept : List (List Nat)) (idle : b.releasing = [])
      (split : (ended ++ kept).Perm b.routed) :
      Step b { b with releasing := ended, routed := kept }
  | release (entry : List Nat) (releasing : List (List Nat)) (channels : List Bool)
      (first : b.releasing = entry :: releasing)
      (freed : ∀ held, Marks b.channels (entry ++ held) → Marks channels held) :
      Step b { b with channels, releasing, uncovered := b.uncovered + entry.length }

variable {b b' : Books}

theorem Step.balanced (step : Step b b') (balanced : b.Balanced) : b'.Balanced := by
  have counted := balanced.counted
  cases step with
  | stay => exact balanced
  | count =>
    constructor
    · exact balanced.marks
    · show b.sessions + 1 = b.held.length + (b.uncovered + 1)
      omega
  | claim i uncovered free =>
    have moved : (i :: b.held).Perm (b.taken ++ [i] ++ b.releasing.flatten ++ b.routed.flatten) := by
      rw [held, append_assoc, append_assoc, append_assoc]
      exact perm_middle.symm
    constructor
    · exact (balanced.marks.claim free).perm moved
    · have longer := moved.length_eq
      rw [length_cons] at longer
      show b.sessions = _ + uncovered
      rw [held, ← longer]
      omega
  | settle uncovered =>
    constructor
    · exact balanced.marks
    · show b.sessions - 1 = b.held.length + uncovered
      omega
  | route =>
    have moved : b.held.Perm ([] ++ b.releasing.flatten ++ (b.routed ++ [b.taken]).flatten) := by
      rw [held, flatten_append, flatten_singleton, nil_append, append_assoc]
      exact perm_append_comm.trans (by rw [append_assoc])
    constructor
    · exact balanced.marks.perm moved
    · rw [held, ← moved.length_eq]
      exact counted
  | serve ended kept idle split =>
    have moved : b.held.Perm (b.taken ++ ended.flatten ++ kept.flatten) := by
      rw [held, idle, flatten_nil, append_nil, append_assoc, ← flatten_append]
      exact (split.flatten).symm.append_left _
    constructor
    · exact balanced.marks.perm moved
    · rw [held, ← moved.length_eq]
      exact counted
  | release entry releasing channels first freed =>
    have moved : b.held.Perm (entry ++ (b.taken ++ releasing.flatten ++ b.routed.flatten)) := by
      rw [held, first, flatten_cons]
      simp only [append_assoc]
      exact perm_append_comm_assoc _ _ _
    constructor
    · exact freed _ (balanced.marks.perm moved)
    · have longer := moved.length_eq
      rw [length_append] at longer
      show b.sessions = (b.taken ++ releasing.flatten ++ b.routed.flatten).length +
        (b.uncovered + entry.length)
      omega

end Books

def Doing.taken : Doing → List Nat
  | .starting _ _ elems => elems.map (·.index)
  | .allocating _ _ _ elems => elems.map (·.index)
  | .sending _ index _ _ elems => elems.map (·.index) ++ [index]
  | .routing _ elems => elems.map (·.index)
  | _ => []

def Doing.uncovered : Doing → Nat
  | .allocating .. => 1
  | _ => 0

def channelsOf (entry : TriggRoutingData) : List Nat := entry.triggRoutingList.map (·.index)

variable (s : State)

def State.books : Books where
  channels := s.mgr.triggChannelList
  sessions := s.mgr.numOfClSessions
  uncovered := s.decrements + s.doing.uncovered
  taken := s.doing.taken
  releasing := s.releasing.map channelsOf
  routed := s.routingDataList.map channelsOf

def State.readers (i : Nat) : Nat :=
  s.threads.countP fun thread => thread.live && decide (thread.triggChannelIndex = i)

variable (event : Event)

def launchedBy : Option Nat :=
  match s.doing, event with
  | .sending _ index _ _ _, .proceed _ => some index
  | _, _ => none

def routedBy : Option TriggRoutingData :=
  match s.doing, event with
  | .routing subscriptionId routing, .route => some ⟨itoa subscriptionId, routing⟩
  | _, _ => none

def endedBy (entry : TriggRoutingData) : Bool :=
  match s.messages, event with
  | message :: _, .serve => isEnded message entry
  | _, _ => false

structure Effect (s : State) (event : Event) (s' : State) : Prop where
  books : s.books.Balanced → s.books.Step s'.books
  launched : ∀ index ∈ launchedBy s event, ∀ i,
    s'.readers i = s.readers i + if i = index then 1 else 0
  others : launchedBy s event = none → ∀ i, s'.readers i ≤ s.readers i
  routed : s'.routingDataList =
    s.routingDataList.filter (fun entry => !endedBy s event entry) ++ (routedBy s event).toList

variable {s s' : State} {event : Event}

/-- What most of the events do: nothing, but some threads may end. -/
structure Kept (s s' : State) : Prop where
  channels : s'.mgr.triggChannelList = s.mgr.triggChannelList
  sessions : s'.mgr.numOfClSessions = s.mgr.numOfClSessions
  taken : s'.doing.taken = s.doing.taken
  uncovered : s'.doing.uncovered = s.doing.uncovered
  server : s'.releasing = s.releasing ∧ s'.decrements = s.decrements ∧
    s'.routingDataList = s.routingDataList
  readers : ∀ i, s'.readers i ≤ s.readers i

theorem Kept.books (kept : Kept s s') : s'.books = s.books := by
  rw [State.books, kept.channels, kept.sessions, kept.taken, kept.uncovered, kept.server.1,
    kept.server.2.1, kept.server.2.2]
  rfl

theorem routed_same (list : s'.routingDataList = s.routingDataList)
    (unrouted : routedBy s event = none) (unended : endedBy s event = fun _ => false) :
    s'.routingDataList = s.routingDataList.filter (fun entry => !endedBy s event entry) ++
      (routedBy s event).toList := by
  rw [unrouted, unended, list]
  simp

theorem unlaunched {p : Nat → Prop} (none : launchedBy s event = none) :
    ∀ index ∈ launchedBy s event, p index := by
  rw [none]
  nofun

theorem Kept.effect (kept : Kept s s') (quiet : launchedBy s event = none)
    (unrouted : routedBy s event = none) (unended : endedBy s event = fun _ => false) :
    Effect s event s' := by
  constructor
  · intro _
    rw [kept.books]
    exact .stay
  · exact unlaunched quiet
  · intro _
    exact kept.readers
  · exact routed_same kept.server.2.2 unrouted unended

theorem readers_of_threads (threads : s'.threads = s.threads) (i : Nat) :
    s'.readers i ≤ s.readers i := by
  rw [State.readers, threads, State.readers]

theorem readers_orphan {subId : Int}
    (threads : s'.threads = orphan subId s.threads) (i : Nat) :
    s'.readers i ≤ s.readers i := by
  rw [State.readers, threads, orphan, countP_map]
  apply le_of_eq
  apply countP_congr
  intro thread _
  simp only [Function.comp]
  split_ifs <;> rfl

theorem readers_set {j : Nat} {thread next : CaptureThread}
    (before : s.threads[j]? = some thread) (threads : s'.threads = s.threads.set j next)
    (running : thread.live = true) (same : next.triggChannelIndex = thread.triggChannelIndex)
    (i : Nat) : s'.readers i ≤ s.readers i := by
  obtain ⟨inside, found⟩ := List.getElem?_eq_some_iff.mp before
  rw [State.readers, State.readers, threads, countP_set inside, found, same, running]
  by_cases reads : thread.triggChannelIndex = i
  · have there : 0 < s.threads.countP fun thread =>
        thread.live && decide (thread.triggChannelIndex = i) := by
      apply countP_pos_iff.mpr
      exact ⟨thread, mem_of_getElem? before, by simp [running, reads]⟩
    simp only [reads, decide_true, Bool.and_true, if_true]
    split_ifs <;> omega
  · simp [reads]

structure SameSessions (mgr mgr' : Manager) : Prop where
  channels : mgr'.triggChannelList = mgr.triggChannelList
  sessions : mgr'.numOfClSessions = mgr.numOfClSessions
  clChannel : mgr'.clChannel = mgr.clChannel

theorem sessions_stopSubscription (sub : SubscriptionState) (mgr : Manager) :
    SameSessions mgr (stopSubscription sub mgr) := by
  rw [stopSubscription]
  split_ifs
  · rw [deactivateInterval]
    split <;> exact ⟨rfl, rfl, rfl⟩
  · exact ⟨rfl, rfl, rfl⟩
  · exact ⟨rfl, rfl, rfl⟩

theorem sessions_setThreads (subId : Int) (threads : Nat) (mgr : Manager) :
    SameSessions mgr (setSubscriptionListThreads subId threads mgr) := by
  rw [setSubscriptionListThreads]
  split <;> exact ⟨rfl, rfl, rfl⟩

theorem channels_receivePack {clPack : CLPack} {mgr mgr' : Manager}
    (received : receivePack mgr = some (clPack, mgr')) :
    mgr'.triggChannelList = mgr.triggChannelList ∧ mgr'.numOfClSessions = mgr.numOfClSessions := by
  rw [receivePack] at received
  split at received
  · cases received
  · cases received
    exact ⟨rfl, rfl⟩

theorem Doing.nothing_taken {doing : Doing} (idle : doing.isIdle = true) :
    doing.taken = [] ∧ doing.uncovered = 0 := by
  cases doing with
  | select | forwarding | killing => exact ⟨rfl, rfl⟩
  | _ => cases idle

theorem freeTriggChannels_marks (elems : List TriggRoutingElem) {channels : List Bool}
    {held : List Nat} (marks : Marks channels (elems.map (·.index) ++ held)) :
    Marks (freeTriggChannels elems channels).1 held ∧
      (freeTriggChannels elems channels).2 = elems.length := by
  induction elems generalizing channels with
  | nil => exact ⟨marks, rfl⟩
  | cons elem elems ih =>
    rw [map_cons, cons_append] at marks
    rw [freeTriggChannels, if_pos marks.is_set]
    exact ⟨(ih marks.free).1, congrArg (· + 1) (ih marks.free).2⟩

theorem launchedBy_eq_none (other : ∀ env, event ≠ .proceed env) : launchedBy s event = none := by
  rw [launchedBy]
  intro _ _ _ _ _ env _ same
  exact other env same

theorem routedBy_eq_none (other : event ≠ .route) : routedBy s event = none := by
  rw [routedBy]
  intro _ _ _ same
  exact other same

theorem endedBy_eq_false (other : event ≠ .serve) : endedBy s event = fun _ => false := by
  funext entry
  rw [endedBy]
  intro _ _ _ same
  exact other same

theorem effect_dispatch {env : Env} (books : s.books.Step s'.books)
    (unlaunched : launchedBy s (.proceed env) = none) (threads : s'.threads = s.threads)
    (list : s'.routingDataList = s.routingDataList) : Effect s (.proceed env) s' := by
  have unrouted : routedBy s (.proceed env) = none := routedBy_eq_none nofun
  constructor
  · exact fun _ => books
  · rw [unlaunched]
    nofun
  · exact fun _ => readers_of_threads threads
  · exact routed_same list unrouted (endedBy_eq_false nofun)

theorem effect_idle (idle : s.doing.isIdle = true) (next : s'.doing.isIdle = true)
    (loop : event.isLoop = true) (same : SameSessions s.mgr s'.mgr)
    (server : s'.releasing = s.releasing ∧ s'.decrements = s.decrements ∧
      s'.routingDataList = s.routingDataList)
    (readers : ∀ i, s'.readers i ≤ s.readers i) : Effect s event s' := by
  have before := Doing.nothing_taken idle
  have after := Doing.nothing_taken next
  have kept : Kept s s' := ⟨same.channels, same.sessions, by rw [before.1, after.1],
    by rw [before.2, after.2], server, readers⟩
  apply kept.effect
  · rw [launchedBy.eq_def]
    split
    · next sending => rw [sending] at idle; cases idle
    · rfl
  · apply routedBy_eq_none
    rintro rfl
    cases loop
  · apply endedBy_eq_false
    rintro rfl
    cases loop

theorem effect_thread {i : Nat} {thread next : CaptureThread} (other : event.isLoop = false)
    (elsewhere : event ≠ .route ∧ event ≠ .serve) (found : s.threads[i]? = some thread)
    (threads : s'.threads = s.threads.set i next) (running : thread.live = true)
    (same : next.triggChannelIndex = thread.triggChannelIndex)
    (sessions : s'.mgr.triggChannelList = s.mgr.triggChannelList ∧
      s'.mgr.numOfClSessions = s.mgr.numOfClSessions)
    (rest : s'.doing = s.doing ∧ s'.releasing = s.releasing ∧ s'.decrements = s.decrements ∧
      s'.routingDataList = s.routingDataList) : Effect s event s' := by
  have kept : Kept s s' := ⟨sessions.1, sessions.2, by rw [rest.1], by rw [rest.1], rest.2,
    readers_set found threads running same⟩
  apply kept.effect _ (routedBy_eq_none elsewhere.1) (endedBy_eq_false elsewhere.2)
  apply launchedBy_eq_none
  rintro env rfl
  cases other

theorem effect_notification {env : Env} {mgr : Manager} (list : List SubscriptionState)
    (close : Int) {clPack : CLPack} (received : receivePack s.mgr = some (clPack, mgr)) :
    Effect s (.notification env) { s with
      mgr := { mgr with closeClSubId := close, subscriptionList := list } } := by
  have same := channels_receivePack received
  have kept : Kept s { s with
      mgr := { mgr with closeClSubId := close, subscriptionList := list } } :=
    ⟨same.1, same.2, rfl, rfl, ⟨rfl, rfl, rfl⟩, readers_of_threads rfl⟩
  exact kept.effect (launchedBy_eq_none nofun) (routedBy_eq_none nofun) (endedBy_eq_false nofun)

theorem release_effect {entry : TriggRoutingData} {releasing : List TriggRoutingData}
    (first : s.releasing = entry :: releasing) (paid : s.decrements = 0) (after : s' = { s with
      releasing
      decrements := (freeTriggChannels entry.triggRoutingList s.mgr.triggChannelList).2
      mgr := { s.mgr with triggChannelList :=
        (freeTriggChannels entry.triggRoutingList s.mgr.triggChannelList).1 } }) :
    Effect s .release s' := by
  constructor
  · intro balanced
    -- the entry holds what it gives back
    have moved : s.books.held.Perm (channelsOf entry ++
        (s.doing.taken ++ (releasing.map channelsOf).flatten ++ s.books.routed.flatten)) := by
      rw [Books.held, State.books, first, map_cons, flatten_cons]
      simp only [append_assoc]
      exact perm_append_comm_assoc _ _ _
    have freed := (freeTriggChannels_marks entry.triggRoutingList
      (balanced.marks.perm moved)).2
    have counted : s'.books = { s.books with
        channels := (freeTriggChannels entry.triggRoutingList s.mgr.triggChannelList).1
        releasing := releasing.map channelsOf
        uncovered := s.books.uncovered + (channelsOf entry).length } := by
      rw [after]
      simp only [State.books, paid, channelsOf, length_map]
      rw [show (freeTriggChannels entry.triggRoutingList s.mgr.triggChannelList).2 =
        entry.triggRoutingList.length from freed, Nat.zero_add, Nat.add_comm]
    rw [counted]
    refine .release _ _ _ (by rw [State.books, first]; rfl) ?_
    intro held marks
    exact (freeTriggChannels_marks entry.triggRoutingList marks).1
  · exact unlaunched (launchedBy_eq_none nofun)
  · intro _
    rw [after]
    exact readers_of_threads rfl
  · rw [after]
    exact routed_same rfl (routedBy_eq_none nofun) (endedBy_eq_false nofun)

theorem step_effect (taken : s.step event = some s') : Effect s event s' := by
  have inverted := taken_of_step taken
  clear taken
  obtain ⟨mgr, doing, threads, messages, routingDataList, releasing, decrements⟩ := s
  cases inverted with
  | passed _ _ idle next loop =>
    exact effect_idle idle next loop ⟨rfl, rfl, rfl⟩ ⟨rfl, rfl, rfl⟩ (readers_of_threads rfl)
  | subscribed _ _ resting _ next =>
    obtain next | ⟨_, _, rfl⟩ := next
    · exact effect_idle (by rw [show doing = .select from resting]; rfl) next rfl
        ⟨rfl, rfl, rfl⟩ ⟨rfl, rfl, rfl⟩ (readers_of_threads rfl)
    · cases resting
      refine Kept.effect ?_ rfl rfl (endedBy_eq_false (by simp))
      exact ⟨rfl, rfl, rfl, rfl, ⟨rfl, rfl, rfl⟩, readers_of_threads rfl⟩
  | @ended _ sub _ _ idle next loop =>
    have same := sessions_stopSubscription sub mgr
    exact effect_idle idle next loop ⟨same.channels, same.sessions, same.clChannel⟩
      ⟨rfl, rfl, rfl⟩ (readers_orphan rfl)
  | unknown _ received | counted _ _ received => exact effect_notification _ _ received
  | skipped _ doing =>
    cases doing
    exact effect_dispatch .stay rfl rfl rfl
  | @planned _ id elems doing =>
    cases doing
    have same := sessions_setThreads id elems.length mgr
    refine Kept.effect ?_ rfl rfl (endedBy_eq_false (by simp))
    exact ⟨same.channels, same.sessions, rfl, rfl, ⟨rfl, rfl, rfl⟩, readers_of_threads rfl⟩
  | started _ _ doing =>
    cases doing
    exact effect_dispatch .count rfl rfl rfl
  | refused doing =>
    cases doing
    exact effect_dispatch (.settle decrements rfl) rfl rfl rfl
  | allocated doing _ free =>
    cases doing
    exact effect_dispatch (.claim _ decrements free rfl) rfl rfl rfl
  | @launched _ _ index group _ elems doing =>
    cases doing
    constructor
    · intro _
      have same : (elems ++ [(⟨index, group⟩ : TriggRoutingElem)]).map (·.index) =
          elems.map (·.index) ++ [index] := map_append
      simp only [State.books, Doing.taken, Doing.uncovered, same]
      exact .stay
    · rintro _ ⟨⟩ i
      rw [State.readers, State.readers, countP_append, countP_singleton]
      simp [CaptureThread.live, eq_comm]
    · rintro ⟨⟩
    · exact routed_same rfl rfl (endedBy_eq_false (by simp))
  | @routed id elems doing =>
    cases doing
    constructor
    · intro _
      simp only [State.books, map_append, map_cons, map_nil]
      exact .route
    · rintro _ ⟨⟩
    · exact fun _ => readers_of_threads rfl
    · have unended : endedBy ⟨mgr, .routing id elems, threads, messages, routingDataList,
          releasing, decrements⟩ .route = fun _ => false := endedBy_eq_false (by simp)
      rw [unended]
      simp [routedBy]
  | round _ found running | finished found running | sent found running =>
    exact effect_thread rfl ⟨by simp, by simp⟩ found rfl running rfl ⟨rfl, rfl⟩ ⟨rfl, rfl, rfl, rfl⟩
  | @served message messages first idle =>
    cases first
    constructor
    · intro _
      refine .serve _ _ (by rw [State.books, idle.1]; rfl) ?_
      rw [State.books, ← map_append]
      exact (filter_append_perm _ _).map _
    · exact unlaunched (launchedBy_eq_none (by simp))
    · exact fun _ => readers_of_threads rfl
    · have unrouted : routedBy ⟨mgr, doing, threads, message :: messages, routingDataList,
          releasing, decrements⟩ .serve = none := routedBy_eq_none (by simp)
      rw [unrouted, toList_none, append_nil]
      rfl
  | released first paid => exact release_effect first paid rfl
  | @decremented less owed =>
    constructor
    · intro _
      refine .settle (less + doing.uncovered) ?_
      rw [State.books, owed, Nat.add_right_comm]
    · exact unlaunched (launchedBy_eq_none (by simp))
    · exact fun _ => readers_of_threads rfl
    · exact routed_same rfl (routedBy_eq_none (by simp)) (endedBy_eq_false (by simp))

/-- The loop and the server are at their selects. -/
def State.quiet (s : State) : Bool := (match s.doing with
    | .select => true
    | _ => false) && s.serverIdle

def State.finished (s : State) : Bool := s.quiet && s.messages.isEmpty &&
    s.mgr.subscriptionList.all fun subscription => !getOpType subscription.filterList "curvelog"

def busyChannels (mgr : Manager) : Nat := mgr.triggChannelList.count true

/-- A channel has one reader, the sessions count the busy ones, and in the end none is busy. -/
structure Owned (s : State) : Prop where
  single : ∀ i, s.readers i ≤ 1
  counted : s.quiet = true → s.mgr.numOfClSessions = busyChannels s.mgr
  released : s.finished = true → busyChannels s.mgr = 0

/-- The server has the curve log, and got no message for its end. -/
def Unended : History State Event Unit → TriggRoutingData → Prop
  | [], _ => False
  | t :: earlier, entry => routedBy t.before t.event = some entry ∨
      endedBy t.before t.event entry = false ∧ Unended earlier entry

/-- A thread is started at a channel that no other reads; and once no curve log is left, the server
was told of the end of each. -/
structure KeepsChannels (t : Transition State Event Unit) (earlier : History State Event Unit) :
    Prop where
  apart : ∀ index ∈ launchedBy t.before t.event, t.before.readers index = 0
  ended : t.after.finished = true → ∀ entry, Unended (t :: earlier) entry →
    entry.triggRoutingList = []

variable {history : History State Event Unit} {t : Transition State Event Unit}

theorem balanced_of_run (run : Run sessionMachine anyStep history s) : s.books.Balanced := by
  apply run.invariant fun _ s => s.books.Balanced
  · rintro s rfl
    exact ⟨Marks.replicate maxClSessions, rfl⟩
  · intro history t balanced taken _
    exact ((step_effect (step_of_taken taken)).books balanced).balanced balanced

theorem routed_iff (run : Run sessionMachine anyStep history s) (entry : TriggRoutingData) :
    entry ∈ s.routingDataList ↔ Unended history entry := by
  apply run.invariant fun history s => entry ∈ s.routingDataList ↔ Unended history entry
  · rintro s rfl
    exact iff_of_false not_mem_nil id
  · intro history t earlier taken _
    rw [(step_effect (step_of_taken taken)).routed, mem_append, mem_filter, earlier,
      Unended, mem_toList, Bool.not_eq_true', or_comm, and_comm]

theorem quiet_books (quiet : s.quiet = true) :
    s.books.taken = [] ∧ s.books.releasing = [] ∧ s.books.uncovered = 0 := by
  obtain ⟨mgr, doing, threads, messages, routingDataList, releasing, decrements⟩ := s
  rw [State.quiet, Bool.and_eq_true, serverIdle_iff] at quiet
  obtain ⟨resting, none_left, none_owed⟩ := quiet
  split at resting
  · next at_select =>
    cases at_select
    cases none_left
    cases none_owed
    exact ⟨rfl, rfl, rfl⟩
  · cases resting

theorem counted_of_balanced (balanced : s.books.Balanced) (quiet : s.quiet = true) :
    s.mgr.numOfClSessions = busyChannels s.mgr := by
  have counted := balanced.counted
  rw [(quiet_books quiet).2.2] at counted
  exact counted.trans balanced.marks.count.symm

theorem released_iff (run : Run sessionMachine anyStep history s) (quiet : s.quiet = true) :
    busyChannels s.mgr = 0 ↔ ∀ entry, Unended history entry → entry.triggRoutingList = [] := by
  have count : busyChannels s.mgr = s.books.held.length := (balanced_of_run run).marks.count
  obtain ⟨untaken, unreleased, -⟩ := quiet_books quiet
  rw [count, Books.held, untaken, unreleased, flatten_nil, append_nil, nil_append,
    length_eq_zero_iff, flatten_eq_nil_iff]
  constructor
  · intro empty entry unended
    have member := (routed_iff run entry).mpr unended
    exact map_eq_nil_iff.mp (empty (channelsOf entry) (mem_map_of_mem member))
  · intro empty channels member
    obtain ⟨entry, listed, rfl⟩ := mem_map.mp member
    rw [channelsOf, empty entry ((routed_iff run entry).mp listed), map_nil]

theorem single_step_iff (effect : Effect s event s') (single : ∀ i, s.readers i ≤ 1) :
    (∀ i, s'.readers i ≤ 1) ↔ ∀ index ∈ launchedBy s event, s.readers index = 0 := by
  cases launched : launchedBy s event with
  | none =>
    apply iff_of_true
    · intro i
      exact (effect.others launched i).trans (single i)
    · nofun
  | some index =>
    have readers := effect.launched index launched
    constructor
    · rintro after _ ⟨⟩
      have bounded := after index
      rw [readers index, if_pos rfl] at bounded
      omega
    · intro unread i
      rw [readers i]
      by_cases same : i = index
      · rw [if_pos same, same, unread index rfl]
      · rw [if_neg same]
        exact single i

theorem owned_step_iff (run : Run sessionMachine anyStep (t :: history) t.after)
    (taken : sessionMachine.step t.before t.event = some (t.after, t.output))
    (single : ∀ i, t.before.readers i ≤ 1) : Owned t.after ↔ KeepsChannels t history := by
  have threads := single_step_iff (step_effect (step_of_taken taken)) single
  have quiet_of_finished : t.after.finished = true → t.after.quiet = true := by
    intro finished
    rw [State.finished, Bool.and_eq_true, Bool.and_eq_true] at finished
    exact finished.1.1
  constructor
  · intro owned
    constructor
    · exact threads.mp owned.single
    · intro finished
      exact (released_iff run (quiet_of_finished finished)).mp (owned.released finished)
  · intro keeps
    constructor
    · exact threads.mpr keeps.apart
    · exact counted_of_balanced (balanced_of_run run)
    · intro finished
      exact (released_iff run (quiet_of_finished finished)).mpr (keeps.ended finished)

/-- The channels are owned if and only if every step keeps to the two conditions. -/
theorem trigg_channels_owned_iff (run : Run sessionMachine anyStep history s) :
    (∀ t ∈ history, Owned t.after) ↔
      ∀ t earlier, t :: earlier <:+ history → KeepsChannels t earlier := by
  have both : ((∀ t ∈ history, Owned t.after) ↔
        ∀ t earlier, t :: earlier <:+ history → KeepsChannels t earlier) ∧
      ((∀ t ∈ history, Owned t.after) → ∀ i, s.readers i ≤ 1) := by
    induction run with
    | start s begins =>
      rw [show s = {} from begins]
      constructor
      · apply iff_of_true (forall_mem_nil _)
        intro t earlier part
        cases suffix_nil.mp part
      · intro _ i
        exact Nat.zero_le 1
    | @step history t run taken allowed ih =>
      obtain ⟨earlier_iff, single⟩ := ih
      have longer : Run sessionMachine anyStep (t :: history) t.after := .step run taken allowed
      constructor
      · rw [forall_mem_cons]
        constructor
        · rintro ⟨owned, all⟩ u earlier part
          obtain same | part := suffix_cons_iff.mp part
          · cases same
            exact (owned_step_iff longer taken (single all)).mp owned
          · exact earlier_iff.mp all u earlier part
        · intro keeps
          have all := earlier_iff.mpr fun u earlier part =>
            keeps u earlier (part.trans (suffix_cons t history))
          exact ⟨(owned_step_iff longer taken (single all)).mpr
            (keeps t history suffix_rfl), all⟩
      · intro all
        exact (all t mem_cons_self).single
  exact both.1

theorem single_iff : (∀ i, s.readers i ≤ 1) ↔
    ∀ thread ∈ s.threads, s.readers thread.triggChannelIndex ≤ 1 := by
  constructor
  · intro single thread _
    exact single _
  · intro single i
    by_contra more
    have some_reader : 0 < s.readers i := by omega
    obtain ⟨thread, mem, reads⟩ := countP_pos_iff.mp some_reader
    rw [Bool.and_eq_true, decide_eq_true_eq] at reads
    apply more
    rw [← reads.2]
    exact single thread mem

theorem owned_iff : Owned s ↔ (∀ thread ∈ s.threads, s.readers thread.triggChannelIndex ≤ 1) ∧
    (s.quiet = true → s.mgr.numOfClSessions = busyChannels s.mgr) ∧
      (s.finished = true → busyChannels s.mgr = 0) := by
  rw [← single_iff]
  exact ⟨fun owned => ⟨owned.single, owned.counted, owned.released⟩,
    fun all => ⟨all.1, all.2.1, all.2.2⟩⟩

instance (s : State) : Decidable (Owned s) := decidable_of_iff _ owned_iff.symm

/-- A curve log is unsubscribed, and the next one gets its channel. -/
theorem trigg_channels_owned_again : ∃ history s, Run sessionMachine anyStep history s ∧
    (∃ t ∈ history, t.after.finished = true ∧ t.event matches .decrement) ∧
      ∀ t earlier, t :: earlier <:+ history → KeepsChannels t earlier := by
  rcases Run.of_exec sessionMachine {} rfl
    (subscribing ++ unsubscribing "1" ++
      [.round 0 (some []), .advance 0, .serve, .release, .decrement] ++ subscribing)
    (fun history _ => (∀ t ∈ history, Owned t.after) ∧
      ∃ t ∈ history, t.after.finished = true ∧ t.event matches .decrement)
    (by decide +kernel) with ⟨history, s, run, owned, last⟩
  exact ⟨history, s, run, last, (trigg_channels_owned_iff run).mp owned⟩

def killing (routerId : Str) : List Event :=
  [.kill [("action", .str "internal-killsubscriptions"), ("RouterId", .str routerId)],
    .proceed sampleEnv, .proceed sampleEnv]

/-- A channel is given back while its thread runs, and the next curve log gets it; that of a killed
client is never given back. -/
theorem trigg_channels_not_owned :
    (∃ history s, Run sessionMachine anyStep history s ∧ s.readers 0 = 2 ∧ ¬ Owned s) ∧
      ∃ history s, Run sessionMachine anyStep history s ∧ s.finished = true ∧
        busyChannels s.mgr = 1 ∧ ¬ Owned s := by
  constructor
  · exact Run.of_exec sessionMachine {} rfl
      (subscribing ++ unsubscribing "1" ++ [.serve, .release, .decrement] ++ subscribing) _
      (by decide +kernel)
  · exact Run.of_exec sessionMachine {} rfl (subscribing ++ killing "1?1") _ (by decide +kernel)

end Vissr.ServiceMgr.Sessions
