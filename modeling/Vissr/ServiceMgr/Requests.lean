import Vissr.ServiceMgr.Lockstep
import Vissr.ErrorResponse

/-! What the requests of the core change in the service manager. -/

namespace Vissr.ServiceMgr

open Json List Act

variable {env : Env} {mgr mgr' mgr'' : Manager}

structure Identity where
  subscriptionId : Int
  routerId : Str
  path : List Str
  filterList : List FilterObject
  gatingId : Str
  deriving DecidableEq

def SubscriptionState.identity (subscription : SubscriptionState) : Identity where
  subscriptionId := subscription.subscriptionId
  routerId := subscription.routerId
  path := subscription.path
  filterList := subscription.filterList
  gatingId := subscription.gatingId

structure OnlyActivates (mgr mgr' : Manager) : Prop where
  identities : mgr'.subscriptionList.map SubscriptionState.identity =
    mgr.subscriptionList.map SubscriptionState.identity
  subscriptionId : mgr'.subscriptionId = mgr.subscriptionId
  errorResponseMap : mgr'.errorResponseMap = mgr.errorResponseMap

theorem OnlyActivates.refl (mgr : Manager) : OnlyActivates mgr mgr := ⟨rfl, rfl, rfl⟩

theorem OnlyActivates.trans (first : OnlyActivates mgr mgr') (second : OnlyActivates mgr' mgr'') :
    OnlyActivates mgr mgr'' where
  identities := second.identities.trans first.identities
  subscriptionId := second.subscriptionId.trans first.subscriptionId
  errorResponseMap := second.errorResponseMap.trans first.errorResponseMap

theorem activateInterval_activates (subId interval : Int) :
    OnlyActivates mgr (activateInterval subId interval mgr) := by
  unfold activateInterval
  split_ifs
  · exact .refl mgr
  · split
    · exact ⟨rfl, rfl, rfl⟩
    · exact .refl mgr

theorem allocateSession_activates {index : Nat} (allocated : allocateSession mgr = some (index, mgr')) :
    OnlyActivates mgr mgr' := by
  unfold allocateSession at allocated
  split_ifs at allocated
  obtain ⟨free, -, same⟩ := Option.map_eq_some_iff.mp allocated
  cases same
  exact ⟨rfl, rfl, rfl⟩

theorem sendClPack_activates (pack : CLPack) :
    (sendClPack pack mgr).Returns (OnlyActivates mgr) := by
  unfold sendClPack
  split_ifs
  · exact returns_pure ⟨rfl, rfl, rfl⟩
  · exact returns_halt

variable (subId : Int)

theorem startSessions_activates (groups : List (List Str)) (routing : List TriggRoutingElem) :
    (startSessions env subId groups mgr routing).Returns
      fun result => OnlyActivates mgr result.1 := by
  induction groups generalizing mgr routing with
  | nil => exact returns_pure (.refl mgr)
  | cons group rest ih =>
    unfold startSessions
    split
    · exact returns_pure (.refl mgr)
    · next index allocated found =>
      refine (sendClPack_activates _).bind ?_
      intro sent sends result returned
      exact ((allocateSession_activates found).trans sends).trans (ih _ result returned)

theorem setSubscriptionListThreads_activates (threads : Nat) :
    OnlyActivates mgr (setSubscriptionListThreads subId threads mgr) := by
  unfold setSubscriptionListThreads
  split
  · refine ⟨?_, rfl, rfl⟩
    apply ext_getElem?
    intro i
    rw [getElem?_map, getElem?_map, getElem?_modify]
    cases mgr.subscriptionList[i]? with
    | none => rfl
    | some =>
      show some (SubscriptionState.identity (if _ then _ else _)) = _
      split_ifs <;> rfl
  · exact .refl mgr

theorem curveLoggingDispatcher_activates (paths : List Str) :
    (curveLoggingDispatcher env subId paths mgr).Returns (OnlyActivates mgr) := by
  rw [curveLoggingDispatcher_eq]
  refine (startSessions_activates _ _ _).bind ?_
  rintro ⟨started, routing⟩ starts
  refine returns_bind ?_
  intro _ _
  exact returns_pure (starts.trans (setSubscriptionListThreads_activates _ _))

theorem activateIfIntervalOrCL_activates (paths : List Str) (filterList : List FilterObject) :
    (activateIfIntervalOrCL env subId paths filterList mgr).Returns
      (OnlyActivates mgr) := by
  induction filterList with
  | nil => exact returns_pure (.refl mgr)
  | cons filter rest ih =>
    unfold activateIfIntervalOrCL
    split_ifs
    · exact returns_pure (activateInterval_activates _ _)
    · exact curveLoggingDispatcher_activates _ _
    · exact ih

section ErrorMap

variable {requestMap : Map Value} {after : Manager}

/-- The map that is passed to `SetErrorResponse` for a request. -/
inductive Concerns (requestMap : Map Value) : Map Value → Prop
  | whole : Concerns requestMap requestMap
  | unknownId : Concerns requestMap (delete "subscriptionId" requestMap)
  | cancelled (routerId subscriptionId : Str) :
    Concerns requestMap (cancelEvent routerId subscriptionId requestMap)

/-- The error map is kept, or an error of the request is written over it. -/
def WritesOver (requestMap : Map Value) (mgr after : Manager) : Prop :=
  after.errorResponseMap = mgr.errorResponseMap ∨ ∃ call : ErrorCall,
    Concerns requestMap call.requestMap ∧ after.errorResponseMap = call.write mgr.errorResponseMap

theorem refuse_writesOver {request : Map Value} (concerns : Concerns requestMap request)
    (refusal : Refusal) : (refuse env request refusal mgr).Returns (WritesOver requestMap mgr) := by
  rintro _ ⟨⟩
  exact .inr ⟨⟨env.rfcTime, request, _, _⟩, concerns, rfl⟩

theorem deactivateSubscription_errorMap {subId : Str}
    (done : deactivateSubscription subId mgr = some after) :
    after.errorResponseMap = mgr.errorResponseMap := by
  unfold deactivateSubscription at done
  split at done
  · cases done
  · obtain ⟨subscription, -, rfl⟩ := Option.map_eq_some_iff.mp done
    simp only [stopSubscription, deactivateInterval]
    split_ifs
    · split <;> rfl
    · rfl
    · rfl

theorem scanAndRemoveListItem_errorMap (routerId : Str) (mgr : Manager) :
    (scanAndRemoveListItem routerId mgr).2.errorResponseMap = mgr.errorResponseMap := by
  unfold scanAndRemoveListItem
  split
  · rfl
  · next sub _ =>
    cases done : deactivateSubscription (itoa sub.subscriptionId) mgr with
    | none => rfl
    | some => exact deactivateSubscription_errorMap done

theorem killSubscriptions_errorMap (routerId : Str) (rounds : Nat) (mgr : Manager) :
    (killSubscriptions routerId rounds mgr).errorResponseMap = mgr.errorResponseMap := by
  induction rounds generalizing mgr with
  | zero => rfl
  | succ rounds ih =>
    have kept := scanAndRemoveListItem_errorMap routerId mgr
    unfold killSubscriptions
    split
    · next same =>
      rw [same] at kept
      exact (ih _).trans kept
    · next same =>
      rw [same] at kept
      exact kept

theorem handleRequest_writesOver :
    (handleRequest env requestMap mgr).Returns (WritesOver requestMap mgr) := by
  have refused := @refuse_writesOver env mgr requestMap _ .whole
  have unchanged : WritesOver requestMap mgr mgr := .inl rfl
  have answered (m : Map Value) : (respond m mgr).Returns (WritesOver requestMap mgr) :=
    returns_bind fun _ _ => returns_pure unchanged
  unfold handleRequest
  cases actionOf requestMap with
  | invoke => exact returns_pure unchanged
  | set =>
    dsimp only
    split_ifs
    · unfold handleServiceMultiSet
      split
      · refine returns_bind fun result _ => ?_
        cases result with
        | error => exact refused _
        | ok => exact answered _
      · exact refused _
    · unfold handleServiceSet
      split
      · exact refused _
      · refine returns_bind fun ts _ => ?_
        split_ifs
        · exact refused _
        · exact answered _
  | get =>
    simp only [handleServiceGet]
    split
    · exact refused _
    · split
      · exact refused _
      · split_ifs
        · exact refused _
        · exact returns_bind fun _ _ => answered _
  | subscribe =>
    simp only [handleServiceSubscribe]
    split
    · exact refused _
    · refine (activateIfIntervalOrCL_activates _ _ _).bind ?_
      intro active activates
      refine returns_bind fun _ _ => ?_
      rintro _ ⟨⟩
      exact .inl activates.errorResponseMap
  | unsubscribe =>
    simp only [handleServiceUnsubscribe]
    split
    · exact refused _
    · split
      · next done =>
        rintro _ ⟨⟩
        exact .inl (deactivateSubscription_errorMap done)
      · exact refuse_writesOver .unknownId _
  | killSubscriptions =>
    refine returns_pure (.inl ?_)
    unfold handleInternalKillSubscriptions
    split
    · rfl
    · exact killSubscriptions_errorMap _ _ _
  | cancelSubscription =>
    simp only [handleInternalCancelSubscription]
    split
    · exact returns_pure unchanged
    · split_ifs
      · exact returns_pure unchanged
      · refine (refuse_writesOver (.cancelled _ _) _).bind ?_
        intro refused writes
        refine returns_pure ?_
        rw [WritesOver, scanAndRemoveListItem_errorMap]
        exact writes
  | unknown => exact refused _

end ErrorMap

variable {bad : Effect → Prop}

theorem startSessions_avoids (groups : List (List Str)) (mgr : Manager)
    (routing : List TriggRoutingElem) :
    (startSessions env subId groups mgr routing).Avoids bad := by
  induction groups generalizing mgr routing with
  | nil => exact avoids_pure _
  | cons group rest ih =>
    unfold startSessions
    split
    · exact avoids_pure _
    · apply Act.Avoids.bind
      · unfold sendClPack
        split_ifs
        · exact avoids_pure _
        · exact avoids_halt
      · intro mgr
        exact ih mgr _

theorem curveLoggingDispatcher_avoids (spared : ∀ routingData, ¬ bad (.clRouterChan routingData))
    {subId : Int} {paths : List Str} :
    (curveLoggingDispatcher env subId paths mgr).Avoids bad := by
  rw [curveLoggingDispatcher_eq]
  apply Act.Avoids.bind (startSessions_avoids _ _ _ _)
  intro started
  apply Act.Avoids.bind (avoids_emit (spared _))
  intro _
  exact avoids_pure _

theorem activateIfIntervalOrCL_avoids (spared : ∀ routingData, ¬ bad (.clRouterChan routingData))
    (subId : Int) (paths : List Str) (filterList : List FilterObject) :
    (activateIfIntervalOrCL env subId paths filterList mgr).Avoids bad := by
  induction filterList with
  | nil => exact avoids_pure _
  | cons filter rest ih =>
    unfold activateIfIntervalOrCL
    split_ifs
    · exact avoids_pure _
    · exact curveLoggingDispatcher_avoids spared
    · exact ih

def handleAll : List (Env × Map Value) → Manager → Option Manager
  | [], mgr => some mgr
  | (env, requestMap) :: rest, mgr =>
    ((handleRequest env requestMap mgr).result).bind (handleAll rest)

/-- The error map is what the errors of the requests leave, after earlier ones. -/
theorem handleAll_errorMap {requests : List (Env × Map Value)} {earlier : List ErrorCall}
    (before : mgr.errorResponseMap = errorMapAfter earlier)
    (handled : handleAll requests mgr = some mgr') : ∃ calls,
      mgr'.errorResponseMap = errorMapAfter (earlier ++ calls) ∧
      ∀ call ∈ calls, ∃ request ∈ requests, Concerns request.2 call.requestMap := by
  induction requests generalizing mgr earlier with
  | nil =>
    cases handled
    exact ⟨[], by rwa [append_nil], nofun⟩
  | cons request rest ih =>
    obtain ⟨next, one, others⟩ := Option.bind_eq_some_iff.mp handled
    have wider {call : ErrorCall} (own : ∃ r ∈ rest, Concerns r.2 call.requestMap) :
        ∃ r ∈ request :: rest, Concerns r.2 call.requestMap :=
      own.imp fun _ => .imp_left (mem_cons_of_mem _)
    obtain kept | ⟨call, concerns, written⟩ := handleRequest_writesOver next one
    · obtain ⟨calls, same, own⟩ := ih (kept.trans before) others
      exact ⟨calls, same, fun call mem => wider (own call mem)⟩
    · rw [before, ← errorMapAfter_concat] at written
      obtain ⟨calls, same, own⟩ := ih written others
      rw [append_assoc] at same
      exact ⟨call :: calls, same, forall_mem_cons.mpr ⟨⟨request, mem_cons_self, concerns⟩,
        fun call mem => wider (own call mem)⟩⟩

def gatedSubscribe : Map Value := request "subscribe"
    [("path", .str "Vehicle.Speed"), ("gatingId", .str "9"),
      ("filter", .obj [("variant", .str "change"), ("parameter", .str [])])]

def cancelGated : Map Value :=
  [("action", .str "internal-cancelsubscription"), ("gatingId", .str "9")]

def pathlessGet : Map Value := [("action", .str "get"), ("RouterId", .str "2?2")]

def answeredSubscription (earlier : List (Map Value)) (requestMap : Map Value) : Option Str :=
  (handleAll (earlier.map fun before => (sampleEnv, before)) {}).bind fun mgr =>
    ((handleRequest sampleEnv requestMap mgr).effects.findSome? fun
      | .dataChan message => some message
      | _ => none).bind fun message => getStr message "subscriptionId"

def cancelError : ErrorCall :=
  ⟨"T", cancelEvent "1?1" "1" cancelGated, 2, "Token expired or consent cancelled."⟩

def pathlessError : ErrorCall := ⟨"T", pathlessGet, 1, "missing/invalid path"⟩

/-- The error of one client tells the subscription id of another. -/
theorem error_tells_other_subscription : answeredSubscription [] pathlessGet = none ∧
      answeredSubscription [gatedSubscribe, cancelGated] pathlessGet = some "1".toList ∧
      ¬ SameContent (errorMapAfter ([cancelError] ++ [pathlessError]))
        (errorMapAfter [pathlessError]) := by
  refine ⟨by decide +kernel, by decide +kernel, ?_⟩
  intro same
  have told := same "subscriptionId".toList (by decide)
  have absent : (errorMapAfter [pathlessError]).lookup "subscriptionId".toList = none := by
    decide +kernel
  have present : ((errorMapAfter ([cancelError] ++ [pathlessError])).lookup
      "subscriptionId".toList).isSome = true := by decide +kernel
  rw [told, absent] at present
  cases present

end Vissr.ServiceMgr
