import Vissr.Channel
import Vissr.Process
import Vissr.ServiceMgr.FeederTexts
import Vissr.ServiceMgr.Removal

/-! The subscriptions of the feeder front end follow those of the clients, over `toFeeder`. -/

namespace Vissr.ServiceMgr

open Json Option Bool FeederSubElem

structure FollowSystem where
  loop : Process Manager Effect := { state := {} }
  toFeeder : Channel Str feederBuf := {}
  frontend : Frontend := {}

inductive FollowEvent where
  /-- the loop takes a request that starts or ends subscriptions -/
  | request (env : Env) (requestMap : Map Value)
  /-- the loop sends on `toFeeder` -/
  | send
  /-- what the loop does besides -/
  | proceed
  /-- the front end takes a message -/
  | take

variable (s : FollowSystem)

def FollowSystem.step : FollowEvent → Option FollowSystem
  | .request env requestMap =>
    if s.loop.resting ∧ (actionOf requestMap).isSubscription then
      some { s with loop := s.loop.handle (handleRequest env requestMap s.loop.state) }
    else none
  | .send =>
    match s.loop.pending with
    | .toFeeder message :: _ =>
      (s.toFeeder.send message).map fun toFeeder =>
        { s with toFeeder, loop := s.loop.advance }
    | _ => none
  | .proceed =>
    match s.loop.pending with
    | [] => none
    | .toFeeder _ :: _ => none
    | _ :: _ => some { s with loop := s.loop.advance }
  | .take =>
    s.toFeeder.receive.bind fun (message, toFeeder) =>
      (receiveToFeeder message s.frontend).result.map fun frontend =>
        { s with toFeeder, frontend }

def followMachine : Machine FollowSystem FollowEvent Unit where
  init s := s = {}
  step s event := (s.step event).map fun after => (after, ())

def Effect.feederMessage : Effect → Option Str
  | .toFeeder message => some message
  | _ => none

def feederMessages (effects : List Effect) : List Str := effects.filterMap Effect.feederMessage

def SubscriptionState.notified (subscription : SubscriptionState) : Bool :=
  subscription.filterList.any fun filter => isFeederVariant filter.type

def feederIds (frontend : Frontend) : List Str :=
  frontend.feederSubList.map subscriptionId

def clientIds (subscriptionList : List SubscriptionState) : List Str :=
  (subscriptionList.filter SubscriptionState.notified).map fun subscription =>
    itoa subscription.subscriptionId

/-- When no message is on its way, the front end has the ids it is told about. -/
def Follows : Prop := s.toFeeder.items = [] → feederMessages s.loop.pending = [] →
    ∀ subscriptionId, subscriptionId ∈ feederIds s.frontend ↔
      subscriptionId ∈ clientIds s.loop.state.subscriptionList

variable (mgr : Manager) (requestMap : Map Value)

/-- The next number is free, and the paths can stand between quotes. -/
def SubscribesPlainly : Prop :=
  mgr.subscriptionId ∉ mgr.subscriptionList.map SubscriptionState.subscriptionId ∧
    ∀ pathStr ∈ getStr requestMap "path", ∀ paths ∈ unpackPaths pathStr,
      ∀ path ∈ paths, PlainText path
  deriving Decidable

/-- The feeder was told about the subscription, under the id of the request, or knows of none. -/
def UnsubscribesNotified : Prop :=
  Distinct requestMap ∧ (Value.obj (delete "origin" requestMap)).Decodable ∧
    ∀ subscriptId ∈ getStr requestMap "subscriptionId", ∀ subscription ∈ mgr.subscriptionList,
        subscription.subscriptionId = atoiClamped subscriptId →
          (subscription.notified = true ∧ subscriptId = itoa subscription.subscriptionId) ∨
            ∀ other ∈ mgr.subscriptionList, other.notified = false
  deriving Decidable

def KillsUnnotified : Prop := ∀ subscription ∈ mgr.subscriptionList,
    getStr requestMap "RouterId" = some subscription.routerId → subscription.notified = false
  deriving Decidable

/-- The feeder does not know of the first subscription of the client. -/
def CancelsUnnotified : Prop := ∀ gatingId ∈ getStr requestMap "gatingId",
    ∀ gated ∈ mgr.subscriptionList.find? (fun subscription => subscription.gatingId = gatingId),
      gated.routerId ≠ [] →
        ∀ first ∈ mgr.subscriptionList.find? (fun other => other.routerId = gated.routerId),
          first.notified = false
  deriving Decidable

@[mk_iff]
structure TellsFeeder (mgr : Manager) (requestMap : Map Value) : Prop where
  subscribe : actionOf requestMap = .subscribe → SubscribesPlainly mgr requestMap
  unsubscribe : actionOf requestMap = .unsubscribe → UnsubscribesNotified mgr requestMap
  kill : actionOf requestMap = .killSubscriptions → KillsUnnotified mgr requestMap
  cancel : actionOf requestMap = .cancelSubscription → CancelsUnnotified mgr requestMap

def FollowEvent.Tells : FollowEvent → Prop
  | .request _ requestMap => TellsFeeder s.loop.state requestMap
  | _ => True

instance (mgr : Manager) (requestMap : Map Value) : Decidable (TellsFeeder mgr requestMap) :=
  decidable_of_iff _ (tellsFeeder_iff mgr requestMap).symm

instance (s : FollowSystem) (event : FollowEvent) : Decidable (event.Tells s) :=
  match event with
  | .request _ requestMap => inferInstanceAs (Decidable (TellsFeeder s.loop.state requestMap))
  | .send | .proceed | .take => isTrue trivial

inductive Change where
  | add (subscriptionId : Str)
  | remove (subscriptionId : Str)

/-- An id that is not there takes all others with it. -/
def Change.apply : Change → List Str → List Str
  | .add subscriptionId, ids => ids ++ [subscriptionId]
  | .remove subscriptionId, ids => if subscriptionId ∈ ids then ids.erase subscriptionId else []

def Does (message : Str) (change : Change) : Prop :=
  ∀ frontend, ∃ after, (receiveToFeeder message frontend).result = some after ∧
    feederIds after = change.apply (feederIds frontend)

theorem forwardSubscribe_ids (message subId variant : Str) (path : List Value)
    (frontend : Frontend) :
    ∃ after, (forwardSubscribe message subId variant path frontend).result = some after ∧
      feederIds after = feederIds frontend ++ [subId] := by
  simp only [forwardSubscribe]
  split_ifs
  · exact ⟨_, rfl, by simp [feederIds, addOnFeederSubList]⟩
  · exact ⟨_, rfl, by simp [feederIds, addOnFeederSubList]⟩
  · exact ⟨_, rfl, by simp [feederIds, addOnFeederSubList]⟩

theorem deleteOnFeederSubList_ids (subId : Str) (feederSubList : List FeederSubElem) :
    (deleteOnFeederSubList subId feederSubList).1.map subscriptionId =
      (Change.remove subId).apply (feederSubList.map subscriptionId) := by
  simp only [Change.apply, deleteOnFeederSubList]
  cases found : feederSubList.findIdx? fun elem => elem.subscriptionId = subId with
  | none =>
    have unknown : subId ∉ feederSubList.map subscriptionId := by
      intro known
      obtain ⟨elem, mem, same⟩ := List.mem_map.mp known
      have missing := List.findIdx?_eq_none_iff.mp found elem mem
      simp [same] at missing
    rw [if_neg unknown]
    rfl
  | some i =>
    obtain ⟨inside, here, -⟩ := List.findIdx?_eq_some_iff_getElem.mp found
    have known : subId ∈ feederSubList.map subscriptionId := by
      rw [← of_decide_eq_true here]
      exact List.mem_map_of_mem (List.getElem_mem inside)
    have index : (feederSubList.map subscriptionId).idxOf subId = i := by
      have searched := (List.findIdx?_eq_some_iff_findIdx_eq.mp found).2
      rw [List.idxOf, List.findIdx_map, ← searched]
      congr 1
      funext elem
      simp [beq_eq_decide]
    rw [if_pos known, List.erase_eq_eraseIdx_of_idxOf index, List.eraseIdx_map]

theorem forwardUnsubscribe_ids (message subId : Str) (frontend : Frontend) :
    ∃ after, (forwardUnsubscribe message subId frontend).result = some after ∧
      feederIds after = (Change.remove subId).apply (feederIds frontend) := by
  have ids := deleteOnFeederSubList_ids subId frontend.feederSubList
  simp only [forwardUnsubscribe]
  rw [Act.bind_of_some _ _ () rfl]
  split_ifs
  · exact ⟨_, rfl, ids⟩
  · exact ⟨_, rfl, ids⟩

theorem does_notify {variant : Str} {paths : List Str} (nonempty : paths ≠ [])
    (plainVariant : PlainText variant) (plain : ∀ path ∈ paths, PlainText path)
    (subId : Int) :
    Does (createFeederNotifyMessage variant paths subId) (.add (itoa subId)) := by
  intro frontend
  have decoded := unmarshalMap_notify nonempty plainVariant plain subId
  rcases forwardSubscribe_ids (createFeederNotifyMessage variant paths subId)
    (itoa subId) variant (paths.map .str) frontend with ⟨after, returned, ids⟩
  refine ⟨after, ?_, ids⟩
  rw [← returned]
  simp only [receiveToFeeder, decoded]
  rfl

theorem does_unsubscribe {request : Map Value} {subscriptId : Str}
    (distinct : Distinct request)
    (decodable : (Value.obj (delete "origin" request)).Decodable)
    (action : getStr request "action" = some "unsubscribe".toList)
    (given : getStr request "subscriptionId" = some subscriptId) :
    Does (Value.obj (delete "origin" request)).marshal (.remove subscriptId) := by
  have kept : ∀ k, k ≠ "origin".toList → getStr (delete "origin" request) k = getStr request k := by
    intro k other
    simp only [getStr, lookup_delete, if_neg other]
  obtain ⟨messageMap, decoded, lookups⟩ :=
    unmarshalMap_marshal (distinct_delete _ _ distinct) decodable
  have readAction := getStr_of_decoded lookups ((kept "action" (by decide)).trans action)
  have readId := getStr_of_decoded lookups ((kept "subscriptionId" (by decide)).trans given)
  intro frontend
  rcases forwardUnsubscribe_ids (Value.obj (delete "origin" request)).marshal subscriptId
    frontend with ⟨after, returned, ids⟩
  refine ⟨after, ?_, ids⟩
  rw [← returned]
  simp only [receiveToFeeder, decoded, isNil_of_getStr readAction, isNil_of_getStr readId,
    readAction, readId]
  rfl

variable {env : Env} {requestMap : Map Value} {mgr mgr' : Manager}
  {sub : SubscriptionState}

def applyAll (changes : List Change) (ids : List Str) : List Str :=
  changes.foldl (fun ids change => change.apply ids) ids

/-- The messages change the ids of the front end as the request does those of the clients. -/
structure Reports (mgr : Manager) (handler : Loop Manager) : Prop where
  numbered : Numbered (handler.result.getD mgr).subscriptionList
  counter : fitsInt (handler.result.getD mgr).subscriptionId = true
  told : ∃ changes, List.Forall₂ Does (feederMessages handler.effects) changes ∧
    ∀ ids, ids.Perm (clientIds mgr.subscriptionList) →
      (applyAll changes ids).Perm (clientIds (handler.result.getD mgr).subscriptionList)

variable {l : List SubscriptionState} {l' : List SubscriptionState}

theorem clientIds_perm (perm : l.Perm l') :
    (clientIds l).Perm (clientIds l') := (perm.filter _).map _

theorem clientIds_cons_notified (notified : sub.notified = true) :
    clientIds (sub :: l) = itoa sub.subscriptionId :: clientIds l := by
  simp [clientIds, notified]

theorem clientIds_cons_unnotified (unnotified : sub.notified = false) :
    clientIds (sub :: l) = clientIds l := by
  simp [clientIds, unnotified]

def Identity.notified (identity : Identity) : Bool :=
  identity.filterList.any fun filter => isFeederVariant filter.type

theorem clientIds_of_identities
    (same : l.map SubscriptionState.identity = l'.map SubscriptionState.identity) :
    clientIds l = clientIds l' := by
  have read : ∀ l : List SubscriptionState, clientIds l =
      ((l.map SubscriptionState.identity).filter Identity.notified).map fun identity =>
        itoa identity.subscriptionId := by
    intro l
    rw [List.filter_map, List.map_map]
    rfl
  rw [read, read, same]

theorem reports_silent {handler : Loop Manager} (silent : feederMessages handler.effects = [])
    (numbered : Numbered (handler.result.getD mgr).subscriptionList)
    (counter : fitsInt (handler.result.getD mgr).subscriptionId = true)
    (same : (clientIds mgr.subscriptionList).Perm
      (clientIds (handler.result.getD mgr).subscriptionList)) : Reports mgr handler := by
  refine ⟨numbered, counter, [], ?_, ?_⟩
  · rw [silent]
    exact .nil
  · intro ids perm
    exact perm.trans same

theorem refuse_reports (numbered : Numbered mgr.subscriptionList)
    (counter : fitsInt mgr.subscriptionId = true) (request : Map Value) (refusal : Refusal) :
    Reports mgr (refuse env request refusal mgr) :=
  reports_silent rfl numbered counter (.refl _)

theorem notified_iff : sub.notified = true ↔
    ∃ variant, getFeederNotifyType sub.filterList = some variant := by
  simp only [SubscriptionState.notified, getFeederNotifyType, map_eq_some_iff,
    exists_comm, exists_eq_right', ← isSome_iff_exists, List.find?_isSome, List.any_eq_true]

theorem plain_variant {filterList : List FilterObject} {variant : Str}
    (found : getFeederNotifyType filterList = some variant) : PlainText variant := by
  obtain ⟨filter, search, rfl⟩ := map_eq_some_iff.mp found
  have known := List.find?_some search
  simp only [isFeederVariant, or_eq_true, decide_eq_true_eq] at known
  rcases known with (same | same) | same <;> rw [same] <;> decide

theorem feederMessages_append (effects effects' : List Effect) :
    feederMessages (effects ++ effects') = feederMessages effects ++ feederMessages effects' :=
  List.filterMap_append

theorem feederMessages_of_avoids {α : Type} {x : Loop α}
    (avoids : x.Avoids fun e => e.feederMessage.isSome = true) : feederMessages x.effects = [] := by
  rw [feederMessages, List.filterMap_eq_nil_iff]
  intro e mem
  exact not_isSome_iff_eq_none.mp (avoids e mem)

theorem Numbered.starts (numbered : Numbered mgr.subscriptionList)
    (counter : fitsInt mgr.subscriptionId = true)
    (fresh : mgr.subscriptionId ∉ mgr.subscriptionList.map SubscriptionState.subscriptionId)
    (number : sub.subscriptionId = mgr.subscriptionId)
    (identities : mgr'.subscriptionList.map SubscriptionState.identity =
      (mgr.subscriptionList ++ [sub]).map SubscriptionState.identity) :
    Numbered mgr'.subscriptionList := by
  have ids := ids_of_identities identities
  rw [List.map_append, List.map_singleton, number] at ids
  constructor
  · exact nodup_ids ids numbered.distinct fresh
  · intro other mem
    obtain ⟨earlier, there, same⟩ | new := id_cases ids mem
    · rw [← same]
      exact numbered.fits earlier there
    · rw [new]
      exact counter

theorem notifyFeeder_does (nonempty : sub.path ≠ [])
    (plain : ∀ path ∈ sub.path, PlainText path) :
    ∃ changes, List.Forall₂ Does (feederMessages (notifyFeeder sub).effects) changes ∧
      ∀ l ids, ids.Perm (clientIds l) → (applyAll changes ids).Perm (clientIds (l ++ [sub])) := by
  have joined : ∀ l, clientIds (l ++ [sub]) = clientIds l ++ clientIds [sub] := by
    intro l
    simp [clientIds]
  cases found : getFeederNotifyType sub.filterList with
  | none =>
    have unnotified : sub.notified = false := by
      refine eq_false_of_not_eq_true fun notified => ?_
      obtain ⟨variant, same⟩ := notified_iff.mp notified
      cases found.symm.trans same
    refine ⟨[], ?_, ?_⟩
    · simp only [notifyFeeder, found]
      exact .nil
    · intro l ids perm
      rw [joined, clientIds_cons_unnotified unnotified]
      simpa [clientIds, applyAll] using perm
  | some variant =>
    have notified : sub.notified = true := notified_iff.mpr ⟨variant, found⟩
    refine ⟨[.add (itoa sub.subscriptionId)], ?_, ?_⟩
    · simp only [notifyFeeder, found]
      exact .cons (does_notify nonempty (plain_variant found) plain _) .nil
    · intro l ids perm
      rw [joined, clientIds_cons_notified notified]
      exact perm.append_right _

section

variable (numbered : Numbered mgr.subscriptionList)

include numbered

section

variable (counter : fitsInt mgr.subscriptionId = true)

include counter

theorem handleServiceSubscribe_reports (plainly : SubscribesPlainly mgr requestMap) :
    Reports mgr (handleServiceSubscribe env requestMap mgr) := by
  obtain ⟨fresh, plain⟩ := plainly
  simp only [handleServiceSubscribe]
  split
  · exact refuse_reports numbered counter _ _
  · next sub read =>
    obtain ⟨number, nonempty, pathStr, given, unpacked⟩ := readSubscription_spec read
    generalize activation : activateIfIntervalOrCL env sub.subscriptionId
      sub.path sub.filterList
      { mgr with subscriptionList := mgr.subscriptionList ++ [sub] } = active
    have silent : feederMessages active.effects = [] := by
      rw [← activation]
      exact feederMessages_of_avoids (activateIfIntervalOrCL_avoids (by rintro _ ⟨⟩) _ _ _)
    cases ended : active.result with
    | none =>
      rw [Act.bind_of_none _ _ ended]
      exact reports_silent silent numbered counter (.refl _)
    | some started =>
      have activates : OnlyActivates
          { mgr with subscriptionList := mgr.subscriptionList ++ [sub] } started := by
        rw [← activation] at ended
        exact activateIfIntervalOrCL_activates _ _ _ started ended
      obtain ⟨changes, does, changed⟩ := notifyFeeder_does nonempty (plain pathStr given _ unpacked)
      have notifies : (notifyFeeder sub).result = some () := by
        simp only [notifyFeeder]
        split <;> rfl
      rw [Act.bind_of_some _ _ started ended, Act.bind_of_some _ _ () notifies]
      refine ⟨?_, ?_, changes, ?_, ?_⟩
      · exact numbered.starts counter fresh number activates.identities
      · exact fitsInt_wrap64 _
      · simp only [feederMessages_append, silent, List.nil_append]
        have response : feederMessages (respond (set "subscriptionId"
            (.str (itoa sub.subscriptionId)) (buildServiceResponseMap env requestMap))
            { started with subscriptionId := wrap64 (started.subscriptionId + 1) }).effects =
            [] := rfl
        rw [response, List.append_nil]
        exact does
      · intro ids perm
        refine (changed mgr.subscriptionList ids perm).trans (.of_eq ?_)
        exact (clientIds_of_identities activates.identities).symm

theorem handleServiceUnsubscribe_reports
    (action : getStr requestMap "action" = some "unsubscribe".toList)
    (notified : UnsubscribesNotified mgr requestMap) :
    Reports mgr (handleServiceUnsubscribe env requestMap mgr) := by
  obtain ⟨distinct, decodable, known⟩ := notified
  simp only [handleServiceUnsubscribe]
  split
  · exact refuse_reports numbered counter _ _
  · next subscriptId given =>
    split
    · next mgr' done =>
      obtain ⟨sub, number, perm, same⟩ := deactivateSubscription_ends done
      have mem : sub ∈ mgr.subscriptionList := perm.mem_iff.mpr List.mem_cons_self
      refine ⟨(numbered.perm perm).tail, ?_, [.remove subscriptId], ?_, ?_⟩
      · show fitsInt mgr'.subscriptionId = true
        rw [same]
        exact counter
      · exact .cons (does_unsubscribe distinct decodable action given) .nil
      · intro ids ids_perm
        show ((Change.remove subscriptId).apply ids).Perm (clientIds mgr'.subscriptionList)
        obtain ⟨told, rfl⟩ | nobody := known subscriptId given sub mem number
        · have split := ids_perm.trans (clientIds_perm perm)
          rw [clientIds_cons_notified told] at split
          rw [Change.apply, if_pos (split.mem_iff.mpr List.mem_cons_self)]
          have erased := split.erase (itoa sub.subscriptionId)
          rwa [List.erase_cons_head] at erased
        · have none : clientIds mgr.subscriptionList = [] := by
            rw [clientIds, List.filter_eq_nil_iff.mpr]
            · rfl
            · intro other there
              simp [nobody other there]
          rw [none] at ids_perm
          have left : clientIds mgr'.subscriptionList = [] := by
            have rest := clientIds_perm perm
            rw [none, clientIds_cons_unnotified (nobody sub mem)] at rest
            exact rest.nil_eq.symm
          rw [ids_perm.eq_nil, left]
          rfl
    · exact refuse_reports numbered counter _ _

theorem killSubscriptions_reports (unnotified : KillsUnnotified mgr requestMap) :
    Reports mgr (pure (handleInternalKillSubscriptions requestMap mgr)) := by
  simp only [handleInternalKillSubscriptions]
  split
  · exact reports_silent rfl numbered counter (.refl _)
  · next routerId given =>
    have left := (@killSubscriptions_spec mgr routerId numbered _ (Nat.le_refl _)).2
    have removes := @killSubscriptions_removes mgr routerId mgr.subscriptionList.length
    obtain ⟨removed, perm⟩ := removes.left
    refine reports_silent rfl (numbered.perm perm).of_append ?_ ?_
    · show fitsInt (killSubscriptions _ _ mgr).subscriptionId = true
      rw [removes.subscriptionId]
      exact counter
    · refine List.Perm.trans (.of_eq ?_) (clientIds_perm left.symm)
      simp only [clientIds, othersOf, List.filter_filter]
      congr 1
      apply List.filter_congr
      intro sub mem
      by_cases own : sub.routerId = routerId
      · simp [unnotified sub mem (own ▸ given)]
      · simp [own]

theorem handleInternalCancelSubscription_reports (unnotified : CancelsUnnotified mgr requestMap) :
    Reports mgr (handleInternalCancelSubscription env requestMap mgr) := by
  cases given : getStr requestMap "gatingId" with
  | none =>
    simp only [handleInternalCancelSubscription, given]
    exact reports_silent rfl numbered counter (.refl _)
  | some gatingId =>
    have result := @handleInternalCancelSubscription_result env requestMap mgr gatingId given
    have removes := handleInternalCancelSubscription_removes _ result
    obtain ⟨removed, perm⟩ := removes.left
    refine reports_silent ?_ ?_ ?_ ?_
    · simp only [handleInternalCancelSubscription, given]
      split_ifs <;> rfl
    · rw [result]
      exact (numbered.perm perm).of_append
    · rw [result, getD_some, removes.subscriptionId]
      exact counter
    · rw [result, getD_some]
      cases found : mgr.subscriptionList.find? fun sub =>
          sub.gatingId = gatingId with
      | none =>
        have unchanged : cancelled env requestMap gatingId mgr = mgr := by
          simp [cancelled, getSubscriptionData, found]
        rw [unchanged]
      | some gated =>
        by_cases routed : gated.routerId = []
        · have unchanged : cancelled env requestMap gatingId mgr = mgr := by
            simp [cancelled, getSubscriptionData, found, routed]
          rw [unchanged]
        · obtain ⟨first, search, ended⟩ :=
            @cancelled_removes env requestMap mgr gatingId numbered gated found routed
          have rest := clientIds_perm ended
          rwa [clientIds_cons_unnotified
            (unnotified gatingId given gated found routed first search)] at rest

theorem handleRequest_reports (kind : (actionOf requestMap).isSubscription = true)
    (tells : TellsFeeder mgr requestMap) : Reports mgr (handleRequest env requestMap mgr) := by
  cases action : actionOf requestMap with
  | subscribe =>
    simp only [handleRequest, action]
    exact handleServiceSubscribe_reports numbered counter (tells.subscribe action)
  | unsubscribe =>
    simp only [handleRequest, action]
    exact handleServiceUnsubscribe_reports numbered counter
      (getStr_of_actionOf (by decide) (by decide) action) (tells.unsubscribe action)
  | killSubscriptions =>
    simp only [handleRequest, action]
    exact killSubscriptions_reports numbered counter (tells.kill action)
  | cancelSubscription =>
    simp only [handleRequest, action]
    exact handleInternalCancelSubscription_reports numbered counter (tells.cancel action)
  | _ =>
    rw [action] at kind
    cases kind

end

end

variable {s s' : FollowSystem}

open FollowSystem

def FollowSystem.onTheWay (s : FollowSystem) : List Str :=
  s.toFeeder.items ++ feederMessages s.loop.pending

structure Tracks (s : FollowSystem) : Prop where
  numbered : Numbered s.loop.state.subscriptionList
  counter : fitsInt s.loop.state.subscriptionId = true
  told : ∃ changes, List.Forall₂ Does s.onTheWay changes ∧
    (applyAll changes (feederIds s.frontend)).Perm (clientIds s.loop.state.subscriptionList)

theorem tracks_start : Tracks {} := ⟨⟨List.nodup_nil, nofun⟩, rfl, [], .nil, .nil⟩

theorem applyAll_append (changes changes' : List Change) (ids : List Str) :
    applyAll (changes ++ changes') ids = applyAll changes' (applyAll changes ids) :=
  List.foldl_append

section

variable (tracks : Tracks s)

include tracks

theorem Tracks.request {handler : Loop Manager}
    (resting : s.loop.resting = true) (reports : Reports s.loop.state handler) :
    Tracks { s with loop := s.loop.handle handler } := by
  obtain ⟨changes, does, perm⟩ := tracks.told
  obtain ⟨more, doesMore, permMore⟩ := reports.told
  have nothing : s.loop.pending = [] := by
    obtain ⟨empty, -⟩ := and_eq_true_iff.mp resting
    exact List.isEmpty_iff.mp empty
  have before : s.onTheWay = s.toFeeder.items := by
    rw [onTheWay, nothing]
    exact List.append_nil _
  rw [before] at does
  refine ⟨reports.numbered, reports.counter, changes ++ more, ?_, ?_⟩
  · exact List.rel_append does doesMore
  · rw [applyAll_append]
    exact permMore _ perm

theorem Tracks.send {message : Str} {rest : List Effect} {toFeeder : Channel Str feederBuf}
    (pending : s.loop.pending = .toFeeder message :: rest)
    (sent : s.toFeeder.send message = some toFeeder) :
    Tracks { s with toFeeder, loop := s.loop.advance } := by
  refine ⟨tracks.numbered, tracks.counter, ?_⟩
  have same : onTheWay { s with toFeeder, loop := s.loop.advance } = s.onTheWay := by
    simp only [onTheWay, Process.advance, pending, Channel.items_of_send sent]
    simp [feederMessages, Effect.feederMessage]
  rw [same]
  exact tracks.told

theorem Tracks.proceed {effect : Effect} {rest : List Effect}
    (pending : s.loop.pending = effect :: rest) (other : effect.feederMessage = none) :
    Tracks { s with loop := s.loop.advance } := by
  refine ⟨tracks.numbered, tracks.counter, ?_⟩
  have same : onTheWay { s with loop := s.loop.advance } = s.onTheWay := by
    simp only [onTheWay, Process.advance, pending]
    simp [feederMessages, other]
  rw [same]
  exact tracks.told

theorem Tracks.take {message : Str} {toFeeder : Channel Str feederBuf} {frontend : Frontend}
    (received : s.toFeeder.receive = some (message, toFeeder))
    (returned : (receiveToFeeder message s.frontend).result = some frontend) :
    Tracks { s with toFeeder, frontend } := by
  obtain ⟨changes, does, perm⟩ := tracks.told
  rw [onTheWay, Channel.items_of_receive received, List.cons_append] at does
  cases does with
  | @cons _ change _ later first rest =>
    obtain ⟨after, same, ids⟩ := first s.frontend
    rw [returned] at same
    cases same
    refine ⟨tracks.numbered, tracks.counter, later, rest, ?_⟩
    show (applyAll later (feederIds frontend)).Perm _
    rw [ids]
    exact perm

theorem Tracks.step {event : FollowEvent} (tells : event.Tells s)
    (taken : s.step event = some s') : Tracks s' := by
  cases event with
  | request =>
    simp only [FollowSystem.step] at taken
    split_ifs at taken with ready
    cases taken
    exact tracks.request ready.1
      (handleRequest_reports tracks.numbered tracks.counter ready.2 tells)
  | send =>
    simp only [FollowSystem.step] at taken
    split at taken
    · next message rest pending =>
      obtain ⟨toFeeder, sent, rfl⟩ := map_eq_some_iff.mp taken
      exact tracks.send pending sent
    · cases taken
  | proceed =>
    simp only [FollowSystem.step] at taken
    split at taken
    · cases taken
    · cases taken
    · next effect rest other pending =>
      cases taken
      refine tracks.proceed pending ?_
      cases effect with
      | toFeeder message => exact absurd rfl (other message)
      | _ => rfl
  | take =>
    obtain ⟨⟨message, toFeeder⟩, received, answered⟩ := bind_eq_some_iff.mp taken
    obtain ⟨frontend, returned, rfl⟩ := map_eq_some_iff.mp answered
    exact tracks.take received returned

theorem Tracks.follows : Follows s := by
  intro drained nothing subId
  obtain ⟨changes, does, perm⟩ := tracks.told
  rw [onTheWay, drained, nothing] at does
  cases does
  exact perm.mem_iff

end

/-- Where requests tell the feeder of all, the front end follows the clients. -/
theorem feeder_follows_clients {history : History FollowSystem FollowEvent Unit}
    (run : Run followMachine (fun _ t => t.event.Tells t.before) history s) : Follows s := by
  refine Tracks.follows (Run.invariant (fun _ s => Tracks s) ?_ ?_ run)
  · rintro s rfl
    exact tracks_start
  · intro history t tracks taken tells
    exact tracks.step tells (step_of_taken taken)

def subscribeEvents (routerId : Str) : List FollowEvent :=
  [.request sampleEnv (speedSubscribe routerId), .send, .proceed, .take]

/-- Two clients subscribe, and one of them unsubscribes. -/
theorem feeder_follows_one_of_two :
    ∃ history s, Run followMachine (fun _ t => t.event.Tells t.before) history s ∧
      (s.toFeeder.items = [] ∧ feederMessages s.loop.pending = [] ∧
        feederIds s.frontend = ["1".toList]) ∧ Follows s := by
  rcases Run.of_execWhile followMachine {} rfl (fun t => t.event.Tells t.before) (fun _ _ => id)
    (subscribeEvents "1?1" ++ subscribeEvents "2?2" ++
      [.request sampleEnv (unsubscribeOf 2), .proceed, .send, .take])
    (fun _ s => s.toFeeder.items = [] ∧ feederMessages s.loop.pending = [] ∧
      feederIds s.frontend = ["1".toList])
    (by decide +kernel) with ⟨history, s, run, known⟩
  exact ⟨history, s, run, known, feeder_follows_clients run⟩

/-- The subscriptions of a client are ended, and the feeder is not told. -/
theorem kill_leaves_feeder_subscription :
    ∃ history s, Run followMachine anyStep history s ∧ ¬ Follows s := by
  rcases Run.of_exec followMachine {} rfl
    (subscribeEvents "1?1" ++ [.request sampleEnv (killClient "1?1")])
    (fun _ s => s.toFeeder.items = [] ∧ feederMessages s.loop.pending = [] ∧
      feederIds s.frontend = ["1"] ∧ s.loop.state.subscriptionList.length = 0)
    (by decide +kernel) with ⟨history, s, run, drained, nothing, left, ended⟩
  refine ⟨history, s, run, ?_⟩
  intro follows
  have listed := (follows drained nothing "1").mp (by simp [left])
  rw [List.length_eq_zero_iff.mp ended] at listed
  cases listed

end Vissr.ServiceMgr
