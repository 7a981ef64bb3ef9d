import Vissr.ServiceMgr.Dispatch

/-! When the service manager sends exactly one message back for a request. -/

namespace Vissr.ServiceMgr

open Json Option List

variable (env : Env)

def Effect.isData : Effect → Bool
  | .dataChan _ => true
  | _ => false

variable (mgr : Manager)

/-- The request is handled, and exactly one message is sent back. -/
def AnswersOnce (requestMap : Map Value) : Prop :=
  (handleRequest env requestMap mgr).Ends Effect.isData 1

def freeSessions : Nat :=
  min (maxClSessions - mgr.numOfClSessions) (mgr.triggChannelList.count false)

def groupsOf (paths : List Str) : List (List Str) :=
  let dims := populateDimLists env.signalDimensions paths
  dims.dim1List ++ dims.dim2List ++ dims.dim3List

def activation (filterList : List FilterObject) : Option FilterObject :=
  filterList.find? fun filter => decide (filter.type = "timebased" ∨ filter.type = "curvelog")

variable (subscription : SubscriptionState)

/-- The first points of the sessions find room in their channel. -/
def SessionsFit : Prop := ∀ filter ∈ activation subscription.filterList, filter.type = "curvelog" →
    mgr.clChannel.packs.length + min (groupsOf env subscription.path).length (freeSessions mgr) ≤
      clCapacity

/-- It invokes no service, a cancellation names a subscription, a get has a path, and a curve log
fits. -/
def Answerable (requestMap : Map Value) : Prop :=
  match actionOf requestMap with
  | .invoke => False
  | .get => ∀ path ∈ getStr requestMap "path", unpackPaths path = some [] →
      hasFilter requestMap = true ∧ filtersOf env requestMap = []
  | .subscribe => ∀ subscription,
      readSubscription env requestMap mgr.subscriptionId = .ok subscription →
        SessionsFit env mgr subscription
  | .cancelSubscription => ∃ gatingId ∈ getStr requestMap "gatingId",
      (getSubscriptionData mgr.subscriptionList gatingId).1 ≠ []
  | _ => True

variable {env} {mgr : Manager}

theorem allocateSession_none : allocateSession mgr = none ↔ freeSessions mgr = 0 := by
  unfold allocateSession freeSessions
  split_ifs with full
  · simp [full]
  · rw [map_eq_none_iff, findIdx?_eq_none_iff]
    constructor
    · intro busy
      have none : mgr.triggChannelList.count false = 0 := by
        rw [count_eq_zero]
        intro mem
        simpa using busy false mem
      rw [none, Nat.min_zero]
    · intro zero channel mem
      have none : mgr.triggChannelList.count false = 0 := by omega
      rw [count_eq_zero] at none
      cases channel with
      | true => rfl
      | false => exact absurd mem none

theorem allocateSession_some {index : Nat} {after : Manager}
    (allocated : allocateSession mgr = some (index, after)) :
    freeSessions after + 1 = freeSessions mgr ∧ after.clChannel = mgr.clChannel := by
  unfold allocateSession at allocated
  split_ifs at allocated with full
  obtain ⟨slot, found, same⟩ := map_eq_some_iff.mp allocated
  cases same
  obtain ⟨inside, free, -⟩ := findIdx?_eq_some_iff_getElem.mp found
  have channels : (mgr.triggChannelList.set index true).count false + 1 =
      mgr.triggChannelList.count false := by
    have there : 0 < mgr.triggChannelList.count false := by
      rw [count_pos_iff, ← of_decide_eq_true free]
      exact getElem_mem inside
    rw [count_set inside, of_decide_eq_true free]
    simp
    omega
  refine ⟨?_, rfl⟩
  simp only [freeSessions]
  omega

theorem sendClPack_room (pack : CLPack) (room : mgr.clChannel.packs.length < clCapacity) :
    sendClPack pack mgr = pure (sendTo pack mgr room) ∧
      (sendTo pack mgr room).clChannel.packs.length = mgr.clChannel.packs.length + 1 := by
  constructor
  · rw [sendClPack, dif_pos room]
  · simp [sendTo]

theorem freeSessions_send (pack : CLPack) (room : mgr.clChannel.packs.length < clCapacity) :
    freeSessions (sendTo pack mgr room) = freeSessions mgr := rfl

section

variable (subId : Int)

/-- As many sessions are started as there are resources for, if their first points fit; otherwise it
does not end. -/
theorem startSessions_cases (groups : List (List Str)) (mgr : Manager)
    (routing : List TriggRoutingElem) :
    (mgr.clChannel.packs.length + min groups.length (freeSessions mgr) ≤ clCapacity →
      ∃ started, startSessions env subId groups mgr routing = pure started) ∧
    (clCapacity < mgr.clChannel.packs.length + min groups.length (freeSessions mgr) →
      startSessions env subId groups mgr routing = Act.halt) := by
  induction groups generalizing mgr routing with
  | nil =>
    refine ⟨fun _ => ⟨_, rfl⟩, fun overflows => ?_⟩
    have bounded := mgr.clChannel.bounded
    simp at overflows
    omega
  | cons group groups ih =>
    rw [startSessions, length_cons]
    cases allocated : allocateSession mgr with
    | none =>
      refine ⟨fun _ => ⟨_, rfl⟩, fun overflows => ?_⟩
      have bounded := mgr.clChannel.bounded
      simp [allocateSession_none.mp allocated] at overflows
      omega
    | some result =>
      obtain ⟨index, started⟩ := result
      obtain ⟨fewer, same⟩ := allocateSession_some allocated
      by_cases room : started.clChannel.packs.length < clCapacity
      · obtain ⟨sent, more⟩ := sendClPack_room (returnSingleDp env subId group) room
        simp only [sent, Act.pure_bind]
        obtain ⟨fit, overflow⟩ := ih _ (routing ++ [⟨index, group⟩])
        rw [more, freeSessions_send, same] at fit overflow
        exact ⟨fun fits => fit (by omega), fun overflows => overflow (by omega)⟩
      · refine ⟨fun fits => ?_, fun _ => ?_⟩
        · rw [same] at room
          omega
        · simp only [sendClPack, dif_neg room, Act.halt_bind]

theorem startSessions_append (groups more : List (List Str)) (mgr : Manager)
    (routing : List TriggRoutingElem) :
    startSessions env subId (groups ++ more) mgr routing =
      startSessions env subId groups mgr routing >>= fun (mgr, routing) =>
        startSessions env subId more mgr routing := by
  induction groups generalizing mgr routing with
  | nil => rfl
  | cons group groups ih =>
    rw [cons_append, startSessions, startSessions]
    cases allocated : allocateSession mgr with
    | none =>
      simp only [Act.pure_bind]
      cases more with
      | nil => rfl
      | cons => rw [startSessions, allocated]
    | some => simp only [ih, Act.bind_assoc]

variable (paths : List Str)

theorem curveLoggingDispatcher_eq (mgr : Manager) :
    curveLoggingDispatcher env subId paths mgr =
      startSessions env subId (groupsOf env paths) mgr [] >>= fun (mgr, routing) =>
        Act.emit (.clRouterChan ⟨itoa subId, routing⟩) >>= fun _ =>
          pure (setSubscriptionListThreads subId routing.length mgr) := by
  unfold curveLoggingDispatcher groupsOf
  simp only [startSessions_append, Act.bind_assoc]

theorem curveLoggingDispatcher_fits (mgr : Manager)
    (fits : mgr.clChannel.packs.length + min (groupsOf env paths).length (freeSessions mgr) ≤ clCapacity) :
    (curveLoggingDispatcher env subId paths mgr).Ends Effect.isData 0 := by
  obtain ⟨started, done⟩ := (startSessions_cases subId _ mgr []).1 fits
  rw [curveLoggingDispatcher_eq, done, Act.pure_bind]
  exact ⟨rfl, rfl⟩

theorem curveLoggingDispatcher_overflows (mgr : Manager)
    (overflows : clCapacity < mgr.clChannel.packs.length + min (groupsOf env paths).length (freeSessions mgr)) :
    (curveLoggingDispatcher env subId paths mgr).result = none := by
  rw [curveLoggingDispatcher_eq, (startSessions_cases subId _ mgr []).2 overflows]
  rfl

end

variable {requestMap : Map Value}

theorem respond_ends (responseMap : Map Value) : (respond responseMap mgr).Ends Effect.isData 1 :=
  (Act.ends_emit rfl).bind fun _ _ => Act.ends_pure _

theorem refuse_ends (refusal : Refusal) :
    (refuse env requestMap refusal mgr).Ends Effect.isData 1 :=
  respond_ends _

theorem writeValue_ends (path : Str) (value : Value) :
    (writeValue env path value).Ends Effect.isData 0 := by
  apply Act.Ends.silent
  · apply Act.ends_emitAll
    intro e mem
    obtain ⟨message, -, rfl⟩ := mem_map.mp mem
    rfl
  · intro _ _
    exact Act.ends_pure _

theorem handleServiceSet_ends : (handleServiceSet env requestMap mgr).Ends Effect.isData 1 := by
  unfold handleServiceSet
  split
  · exact refuse_ends _
  · apply (writeValue_ends _ _).silent
    intro ts _
    split_ifs
    · exact refuse_ends _
    · exact respond_ends _

theorem writeElements_ends (elements : List Value) (ts : Str) :
    (writeElements env elements ts).Ends Effect.isData 0 := by
  induction elements generalizing ts with
  | nil => exact Act.ends_pure _
  | cons element elements ih =>
    cases element with
    | obj =>
      rw [writeElements]
      split
      · exact Act.ends_pure _
      · apply (writeValue_ends _ _).silent
        intro ts _
        split_ifs
        · exact Act.ends_pure _
        · exact ih ts
    | null | bool | num | str | arr => exact Act.ends_pure _

theorem handleServiceMultiSet_ends :
    (handleServiceMultiSet env requestMap mgr).Ends Effect.isData 1 := by
  unfold handleServiceMultiSet
  split
  · apply (writeElements_ends _ _).silent
    intro result _
    cases result with
    | error => exact refuse_ends _
    | ok => exact respond_ends _
  · exact refuse_ends _

theorem getDataPackMap_isSome (paths : List Str) :
    (getDataPackMap env paths).isSome = true ↔ paths ≠ [] := by
  obtain _ | ⟨path, _ | ⟨other, rest⟩⟩ := paths
  · simp [getDataPackMap]
  · simp [getDataPackMap]
  · simp [getDataPackMap]

theorem handleServiceGet_ends_iff : (handleServiceGet env requestMap mgr).Ends Effect.isData 1 ↔
      ∀ path ∈ getStr requestMap "path", unpackPaths path = some [] →
        hasFilter requestMap = true ∧ filtersOf env requestMap = [] := by
  unfold handleServiceGet
  split
  · next missing =>
    rw [missing]
    exact ⟨fun _ path mem => (not_mem_none path mem).elim, fun _ => refuse_ends _⟩
  · next path given =>
    rw [given]
    simp only [mem_some_iff, forall_eq']
    split
    · next malformed =>
      rw [malformed]
      exact ⟨fun _ same => (by cases same), fun _ => refuse_ends _⟩
    · next pathArray unpacked =>
      rw [unpacked, some_inj]
      split_ifs with unfiltered
      · exact ⟨fun _ _ => unfiltered, fun _ => refuse_ends _⟩
      · constructor
        · intro ends empty
          rw [empty] at ends
          exact absurd ends (Act.not_ends_bind rfl)
        · intro filtered
          have some := (@getDataPackMap_isSome env pathArray).mpr
            fun empty => unfiltered (filtered empty)
          exact (Act.ends_await some).silent fun _ _ => respond_ends _

theorem notifyFeeder_ends : (notifyFeeder subscription).Ends Effect.isData 0 := by
  unfold notifyFeeder
  split
  · exact Act.ends_pure _
  · exact ⟨rfl, rfl⟩

theorem activation_cons (filter : FilterObject) (filterList : List FilterObject) :
    activation (filter :: filterList) =
      if filter.type = "timebased" ∨ filter.type = "curvelog" then some filter
      else activation filterList := by
  rw [activation, find?_cons]
  split
  · next holds => rw [if_pos (of_decide_eq_true holds)]
  · next fails =>
    rw [if_neg (of_decide_eq_false fails)]
    rfl

theorem activateIfIntervalOrCL_eq (subId : Int) (paths : List Str)
    (filterList : List FilterObject) (mgr : Manager) :
    activateIfIntervalOrCL env subId paths filterList mgr =
      match activation filterList with
      | none => pure mgr
      | some filter =>
        if filter.type = "curvelog" then curveLoggingDispatcher env subId paths mgr
        else pure (activateInterval subId (getIntervalPeriod filter.parameter) mgr) := by
  induction filterList with
  | nil => rfl
  | cons filter filterList ih =>
    rw [activateIfIntervalOrCL, activation_cons]
    by_cases timebased : filter.type = "timebased"
    · have other : ¬ filter.type = "curvelog" := by
        rw [timebased]
        decide
      rw [if_pos timebased, if_pos (.inl timebased)]
      simp only [if_neg other]
    · rw [if_neg timebased]
      by_cases curvelog : filter.type = "curvelog"
      · rw [if_pos curvelog, if_pos (.inr curvelog)]
        simp only [if_pos curvelog]
      · rw [if_neg curvelog, if_neg (not_or.mpr ⟨timebased, curvelog⟩)]
        exact ih

theorem handleServiceSubscribe_ends_iff :
    (handleServiceSubscribe env requestMap mgr).Ends Effect.isData 1 ↔
      ∀ subscription, readSubscription env requestMap mgr.subscriptionId = .ok subscription →
        SessionsFit env mgr subscription := by
  unfold handleServiceSubscribe
  split
  · next refusal refused =>
    rw [refused]
    exact ⟨fun _ subscription same => (by cases same), fun _ => refuse_ends _⟩
  · next subscription read =>
    rw [read]
    simp only [Except.ok.injEq, forall_eq']
    rw [activateIfIntervalOrCL_eq, SessionsFit]
    cases activation subscription.filterList with
    | none =>
      refine ⟨fun _ filter mem => (not_mem_none filter mem).elim, fun _ => ?_⟩
      exact (Act.ends_pure _).silent fun _ _ =>
        (notifyFeeder_ends _).silent fun _ _ => respond_ends _
    | some =>
      simp only [mem_some_iff, forall_eq']
      split_ifs with curvelog
      · constructor
        · intro ends _
          by_contra overflows
          have stopped := curveLoggingDispatcher_overflows subscription.subscriptionId
            subscription.path { mgr with subscriptionList := mgr.subscriptionList ++ [subscription] }
            (Nat.lt_of_not_le overflows)
          exact Act.not_ends_bind stopped ends
        · intro fits
          have started := curveLoggingDispatcher_fits subscription.subscriptionId
            subscription.path { mgr with subscriptionList := mgr.subscriptionList ++ [subscription] }
            (fits curvelog)
          exact started.silent fun _ _ =>
            (notifyFeeder_ends _).silent fun _ _ => respond_ends _
      · refine ⟨fun _ isCurvelog => absurd isCurvelog curvelog, fun _ => ?_⟩
        exact (Act.ends_pure _).silent fun _ _ =>
          (notifyFeeder_ends _).silent fun _ _ => respond_ends _

theorem handleServiceUnsubscribe_ends :
    (handleServiceUnsubscribe env requestMap mgr).Ends Effect.isData 1 := by
  unfold handleServiceUnsubscribe
  split
  · exact refuse_ends _
  · split
    · apply (respond_ends _).bind (m := 0)
      intro _ _
      exact ⟨rfl, rfl⟩
    · exact refuse_ends _

theorem handleInternalCancelSubscription_ends_iff :
    (handleInternalCancelSubscription env requestMap mgr).Ends Effect.isData 1 ↔
      ∃ gatingId ∈ getStr requestMap "gatingId",
        (getSubscriptionData mgr.subscriptionList gatingId).1 ≠ [] := by
  unfold handleInternalCancelSubscription
  split
  · next missing =>
    rw [missing]
    constructor
    · intro ends
      cases ends.count
    · rintro ⟨gatingId, mem, -⟩
      exact (not_mem_none gatingId mem).elim
  · next gatingId given =>
    rw [given]
    simp only [mem_some_iff, exists_eq_left']
    split_ifs with absent
    · constructor
      · intro ends
        cases ends.count
      · intro present
        exact absurd absent present
    · refine ⟨fun _ => absent, fun _ => ?_⟩
      exact (refuse_ends _).bind (m := 0) fun _ _ => Act.ends_pure _

theorem getStr_of_actionOf {action : Action} {name : Str} (known : action ≠ .unknown)
    (table : ∀ p ∈ actionNames, p.2 = action → p.1 = name) (given : actionOf requestMap = action) :
    getStr requestMap "action" = some name := by
  subst given
  unfold actionOf at known table
  cases named : getStr requestMap "action" with
  | none =>
    rw [named] at known
    exact absurd rfl known
  | some other =>
    rw [named, bind_some] at known table
    cases found : actionNames.lookup other with
    | none =>
      rw [found] at known
      exact absurd rfl known
    | some action =>
      rw [found] at table
      exact congrArg some (table _ (mem_of_lookup actionNames other action found) rfl)

theorem actionOf_kill (action : actionOf requestMap = .killSubscriptions) :
    getStr requestMap "action" = some "internal-killsubscriptions".toList :=
  getStr_of_actionOf (by decide) (by decide) action

def sampleEnv : Env where
  getVehicleData := fun _ => "\x7b\"value\":\"0\", \"ts\":\"T\"\x7d"
  setVehicleData := fun _ _ => ("T", [])
  signalDimensions := none
  floats := ⟨Unit, fun _ => some (), fun a _ => a, fun _ _ => true, fun _ _ => false⟩
  order := .asListed
  rfcTime := "T"

def request (action : Str) (fields : Map Value) : Map Value :=
  ("action", .str action) :: ("RouterId", .str "1?1") :: fields

def sixCurveLogs : Map Value := request "subscribe"
    [("path", .str "[\"A\",\"B\",\"C\",\"D\",\"E\",\"F\"]"),
      ("filter", .obj [("variant", .str "curvelog"), ("parameter", .str [])])]

end Vissr.ServiceMgr
