import Vissr.ServiceMgr.Requests
import Vissr.Run

/-! How subscriptions end: found by client or gating id, and taken out by number. -/

namespace Vissr.ServiceMgr

open Json List Option Nat Act SubscriptionState

/-- The last element is put in the place of another one. -/
theorem set_dropLast_perm {α : Type} {l : List α} {i : Nat} {last : α}
    (ends : l.getLast? = some last) (inside : i < l.length) :
    ((l.set i last).dropLast).Perm (l.eraseIdx i) := by
  obtain ⟨front, rfl⟩ := getLast?_eq_some_iff.mp ends
  obtain early | late := lt_or_ge i front.length
  · rw [set_append_left _ _ early, dropLast_concat, eraseIdx_append_of_lt_length early]
    exact (set_perm_cons_eraseIdx early last).trans (perm_append_singleton _ _).symm
  · have here : i = front.length := by
      simp only [length_append, length_singleton] at inside
      omega
    subst here
    simp [eraseIdx_append_of_length_le]

variable {mgr mgr' : Manager} {subscription : SubscriptionState}

/-- The subscriptions have numbers of their own, which are numbers of Go. -/
structure Numbered (subscriptionList : List SubscriptionState) : Prop where
  distinct : (subscriptionList.map subscriptionId).Nodup
  fits : ∀ subscription ∈ subscriptionList, fitsInt subscription.subscriptionId = true

variable {l : List SubscriptionState} {sub : SubscriptionState}

theorem Numbered.perm {l' : List SubscriptionState} (numbered : Numbered l) (perm : l.Perm l') :
    Numbered l' where
  distinct := (perm.map _).nodup_iff.mp numbered.distinct
  fits := by
    intro sub mem
    exact numbered.fits sub (perm.mem_iff.mpr mem)

theorem Numbered.of_append {l' : List SubscriptionState} (numbered : Numbered (l ++ l')) :
    Numbered l' where
  distinct := by
    have distinct := numbered.distinct
    rw [map_append] at distinct
    exact distinct.of_append_right
  fits := by
    intro other mem
    exact numbered.fits other (mem_append_right _ mem)

theorem Numbered.tail (numbered : Numbered (sub :: l)) :
    Numbered l := Numbered.of_append (l := [sub]) numbered

theorem Numbered.eq_of_id (numbered : Numbered l) {other : SubscriptionState}
    (mem : subscription ∈ l) (other_member : other ∈ l)
    (same : other.subscriptionId = subscription.subscriptionId) : other = subscription :=
  inj_on_of_nodup_map numbered.distinct other_member mem same

theorem index_of_mem (numbered : Numbered mgr.subscriptionList)
    (mem : subscription ∈ mgr.subscriptionList) :
    ∃ index, getSubcriptionStateIndex subscription.subscriptionId mgr.subscriptionList = some index ∧
      mgr.subscriptionList[index]? = some subscription := by
  cases found : getSubcriptionStateIndex subscription.subscriptionId mgr.subscriptionList with
  | none =>
    have missing := findIdx?_eq_none_iff.mp found subscription mem
    simp at missing
  | some index =>
    obtain ⟨inside, here, -⟩ := findIdx?_eq_some_iff_getElem.mp found
    have same : mgr.subscriptionList[index] = subscription :=
      numbered.eq_of_id mem (getElem_mem inside) (of_decide_eq_true here)
    exact ⟨index, rfl, by rw [getElem?_eq_getElem inside, same]⟩

theorem removeFromsubscriptionList_perm {index : Nat} (here : l[index]? = some sub) :
    l.Perm (sub :: removeFromsubscriptionList l index) := by
  obtain ⟨inside, same⟩ := List.getElem?_eq_some_iff.mp here
  have erased : l.Perm (sub :: l.eraseIdx index) := by
    rw [← same]
    exact (getElem_cons_eraseIdx_perm inside).symm
  refine erased.trans (.cons sub ?_)
  cases ends : l.getLast? with
  | none => simp [getLast?_eq_none_iff.mp ends] at inside
  | some =>
    simp only [removeFromsubscriptionList, ends]
    exact (set_dropLast_perm ends inside).symm

theorem deactivateSubscription_spec (numbered : Numbered mgr.subscriptionList)
    (mem : sub ∈ mgr.subscriptionList) :
    ∃ mgr', deactivateSubscription (itoa sub.subscriptionId) mgr = some mgr' ∧
      mgr.subscriptionList.Perm (sub :: mgr'.subscriptionList) := by
  obtain ⟨index, found, here⟩ := index_of_mem numbered mem
  have number := atoiClamped_itoa _ (numbered.fits sub mem)
  refine ⟨{ stopSubscription sub mgr with
    subscriptionList := removeFromsubscriptionList mgr.subscriptionList index }, ?_, ?_⟩
  · simp only [deactivateSubscription, number, found, here, map_some]
  · exact removeFromsubscriptionList_perm here

theorem scanAndRemoveListItem_spec (mgr : Manager) {routerId : Str} (numbered : Numbered mgr.subscriptionList)
    (found : mgr.subscriptionList.find? (fun sub => sub.routerId = routerId) =
      some sub) : (scanAndRemoveListItem routerId mgr).1 = true ∧ mgr.subscriptionList.Perm
        (sub :: (scanAndRemoveListItem routerId mgr).2.subscriptionList) := by
  obtain ⟨mgr', done, perm⟩ := deactivateSubscription_spec numbered (mem_of_find?_eq_some found)
  simp only [scanAndRemoveListItem, found, done, getD_some, true_and]
  exact perm

section Cancellation

variable {env : Env} {request : Map Value} {mgr : Manager} {gatingId : Str}

def Cancelled (gatingId : Str) (before after : List SubscriptionState) : Prop :=
  (∀ subscription ∈ after, subscription.gatingId ≠ gatingId) ∧
    ∀ subscription ∈ before, subscription.gatingId ≠ gatingId → subscription ∈ after

/-- At most one has the gating id, the first of a client with a router id. -/
def GatedFirst (gatingId : Str) (subscriptionList : List SubscriptionState) : Prop :=
  ∀ subscription ∈ subscriptionList, subscription.gatingId = gatingId → subscription.routerId ≠ [] ∧
      subscriptionList.find? (fun other => other.routerId = subscription.routerId) =
        some subscription ∧
      ∀ other ∈ subscriptionList, other.gatingId = gatingId → other = subscription

def cancelled (env : Env) (requestMap : Map Value) (gatingId : Str) (mgr : Manager) : Manager :=
  let (routerId, subscriptionId) := getSubscriptionData mgr.subscriptionList gatingId
  if routerId = [] then mgr
  else
    (scanAndRemoveListItem routerId { mgr with
      errorResponseMap := setErrorResponse env.rfcTime
        (cancelEvent routerId subscriptionId requestMap) mgr.errorResponseMap 2
        "Token expired or consent cancelled." }).2

theorem handleInternalCancelSubscription_result
    (gating : getStr request "gatingId" = some gatingId) :
    (handleInternalCancelSubscription env request mgr).result =
      some (cancelled env request gatingId mgr) := by
  simp only [handleInternalCancelSubscription, gating, cancelled]
  split_ifs <;> rfl

theorem cancelled_removes (numbered : Numbered mgr.subscriptionList) {first : SubscriptionState}
    (found : mgr.subscriptionList.find? (fun sub => sub.gatingId = gatingId) =
      some first) (routed : first.routerId ≠ []) :
    ∃ removed, mgr.subscriptionList.find? (fun other => other.routerId = first.routerId) =
        some removed ∧ mgr.subscriptionList.Perm
        (removed :: (cancelled env request gatingId mgr).subscriptionList) := by
  have member : first ∈ mgr.subscriptionList := mem_of_find?_eq_some found
  cases search : mgr.subscriptionList.find? fun other => other.routerId = first.routerId with
  | none =>
    have missing := find?_eq_none.mp search first member
    simp at missing
  | some removed =>
    -- the error map has changed before, the list has not
    have scan : ∀ mgr' : Manager, mgr'.subscriptionList = mgr.subscriptionList →
        mgr.subscriptionList.Perm
          (removed :: (scanAndRemoveListItem first.routerId mgr').2.subscriptionList) := by
      intro mgr' same
      rw [← same] at numbered search ⊢
      exact (scanAndRemoveListItem_spec mgr' numbered search).2
    refine ⟨removed, rfl, ?_⟩
    simp only [cancelled, getSubscriptionData, found, if_neg routed]
    exact scan _ rfl

/-- A cancellation ends exactly the subscriptions with the gating id if and only if there is at most
one, the first of its client. -/
theorem cancel_ends_gated_iff (env : Env) (requestMap : Map Value) (mgr : Manager) (gatingId : Str)
    (gating : getStr requestMap "gatingId" = some gatingId)
    (numbered : Numbered mgr.subscriptionList) :
    (∃ mgr', (handleInternalCancelSubscription env requestMap mgr).result = some mgr' ∧
      Cancelled gatingId mgr.subscriptionList mgr'.subscriptionList) ↔
    GatedFirst gatingId mgr.subscriptionList := by
  rw [handleInternalCancelSubscription_result gating]
  simp only [some.injEq, exists_eq_left']
  cases found : mgr.subscriptionList.find? fun subscription => subscription.gatingId = gatingId with
  | none =>
    have nobody : ∀ subscription ∈ mgr.subscriptionList, subscription.gatingId ≠ gatingId := by
      simpa using find?_eq_none.mp found
    have unchanged : cancelled env requestMap gatingId mgr = mgr := by
      simp [cancelled, getSubscriptionData, found]
    rw [unchanged]
    constructor
    · intro _ subscription member gated
      exact absurd gated (nobody subscription member)
    · intro _
      exact ⟨nobody, fun _ member _ => member⟩
  | some first =>
    have member : first ∈ mgr.subscriptionList := mem_of_find?_eq_some found
    have gated : first.gatingId = gatingId := by simpa using find?_some found
    by_cases routed : first.routerId = []
    · have unchanged : cancelled env requestMap gatingId mgr = mgr := by
        simp [cancelled, getSubscriptionData, found, routed]
      rw [unchanged]
      constructor
      · intro done
        exact absurd gated (done.1 first member)
      · intro alone
        exact absurd routed (alone first member gated).1
    · obtain ⟨removed, search, perm⟩ :=
        @cancelled_removes env requestMap mgr gatingId numbered first found routed
      constructor
      · intro done
        have only : ∀ other ∈ mgr.subscriptionList, other.gatingId = gatingId →
            other = removed := by
          intro other there same
          obtain here | left := mem_cons.mp (perm.mem_iff.mp there)
          · exact here
          · exact absurd same (done.1 other left)
        intro subscription there same
        have this := only subscription there same
        have first_this := only first member gated
        subst this
        rw [first_this] at routed search
        exact ⟨routed, search, only⟩
      · intro alone
        obtain ⟨-, search', only⟩ := alone first member gated
        have this : removed = first := some.inj (search.symm.trans search')
        subst this
        have gone : removed ∉ (cancelled env requestMap gatingId mgr).subscriptionList := by
          intro still
          have distinct := (numbered.perm perm).distinct
          exact (nodup_cons.mp distinct).1 (mem_map_of_mem still)
        constructor
        · intro subscription still same
          have there := perm.mem_iff.mpr (mem_cons_of_mem _ still)
          rw [only subscription there same] at still
          exact gone still
        · intro subscription there other
          obtain here | left := mem_cons.mp (perm.mem_iff.mp there)
          · rw [here] at other
            exact absurd gated other
          · exact left

def openSubscription : SubscriptionState where
  subscriptionId := 1
  routerId := "1?1"
  path := ["Vehicle.Speed"]
  filterList := [⟨"change", []⟩]

def gatedSubscription : SubscriptionState :=
  { openSubscription with subscriptionId := 2, gatingId := "9" }

/-- The other subscription of the client is ended instead. -/
theorem cancel_ends_other_subscription : ((handleInternalCancelSubscription sampleEnv cancelGated
        { subscriptionList := [openSubscription, gatedSubscription] }).result.map
          Manager.subscriptionList) = some [gatedSubscription] ∧
      ¬ ∃ mgr', (handleInternalCancelSubscription sampleEnv cancelGated
          { subscriptionList := [openSubscription, gatedSubscription] }).result = some mgr' ∧
        Cancelled "9" [openSubscription, gatedSubscription] mgr'.subscriptionList := by
  have left : ((handleInternalCancelSubscription sampleEnv cancelGated
      { subscriptionList := [openSubscription, gatedSubscription] }).result.map
        Manager.subscriptionList) = some [gatedSubscription] := by decide +kernel
  refine ⟨left, ?_⟩
  rintro ⟨mgr', returned, gone, -⟩
  rw [returned] at left
  have list : mgr'.subscriptionList = [gatedSubscription] := some.inj left
  apply gone gatedSubscription
  · rw [list]
    exact mem_singleton_self _
  · rfl

theorem cancel_ends_gated_first : ∃ mgr', (handleInternalCancelSubscription sampleEnv cancelGated
        { subscriptionList := [gatedSubscription, openSubscription] }).result = some mgr' ∧
      Cancelled "9" [gatedSubscription, openSubscription] mgr'.subscriptionList := by
  apply (cancel_ends_gated_iff sampleEnv cancelGated
    { subscriptionList := [gatedSubscription, openSubscription] } "9" rfl
      ⟨by decide, by decide⟩).mpr
  show ∀ subscription ∈ _, _
  decide

end Cancellation

section Killing

variable {env : Env} {request : Map Value} {mgr mgr' : Manager} {routerId : Str}

inductive KillLoop (routerId : Str) : Manager → Manager → Prop
  | done {mgr mgr' : Manager} (scanned : scanAndRemoveListItem routerId mgr = (false, mgr')) :
      KillLoop routerId mgr mgr'
  | again {mgr next mgr' : Manager} (scanned : scanAndRemoveListItem routerId mgr = (true, next))
      (rest : KillLoop routerId next mgr') : KillLoop routerId mgr mgr'

def othersOf (routerId : Str) (subscriptionList : List SubscriptionState) :
    List SubscriptionState :=
  subscriptionList.filter fun subscription => subscription.routerId ≠ routerId

theorem killSubscriptions_spec (numbered : Numbered mgr.subscriptionList) {rounds : Nat}
    (enough : mgr.subscriptionList.length ≤ rounds) :
    KillLoop routerId mgr (killSubscriptions routerId rounds mgr) ∧
      (killSubscriptions routerId rounds mgr).subscriptionList.Perm
        (othersOf routerId mgr.subscriptionList) := by
  induction rounds generalizing mgr with
  | zero =>
    have empty : mgr.subscriptionList = [] := eq_nil_of_length_eq_zero (le_zero.mp enough)
    refine ⟨.done ?_, ?_⟩
    · simp [scanAndRemoveListItem, killSubscriptions, empty]
    · simp [killSubscriptions, othersOf, empty]
  | succ rounds ih =>
    cases found : mgr.subscriptionList.find? fun sub => sub.routerId = routerId
    with
    | none =>
      have scanned : scanAndRemoveListItem routerId mgr = (false, mgr) := by
        simp [scanAndRemoveListItem, found]
      have nobody : ∀ sub ∈ mgr.subscriptionList, sub.routerId ≠ routerId := by
        simpa using find?_eq_none.mp found
      rw [killSubscriptions, scanned]
      refine ⟨.done scanned, .of_eq ?_⟩
      exact (filter_eq_self.mpr (by simpa using nobody)).symm
    | some sub =>
      obtain ⟨removed, perm⟩ := scanAndRemoveListItem_spec mgr numbered found
      have own : sub.routerId = routerId := by simpa using find?_some found
      generalize result : scanAndRemoveListItem routerId mgr = scanned at removed perm
      obtain ⟨again, next⟩ := scanned
      cases removed
      have fewer : next.subscriptionList.length ≤ rounds := by
        have length := perm.length_eq
        simp only [length_cons] at length
        omega
      obtain ⟨loops, left⟩ := ih (numbered.perm perm).tail fewer
      rw [killSubscriptions, result]
      refine ⟨.again result loops, left.trans ?_⟩
      have same := (perm.filter fun sub => sub.routerId ≠ routerId).symm
      rwa [filter_cons_of_neg (by simpa using own)] at same

end Killing

section Reachable

variable {env : Env} {request : Map Value} {mgr mgr' mgr'' : Manager}

/-- Nothing but subscriptions that are taken out. -/
structure Removes (mgr mgr' : Manager) : Prop where
  subscriptionId : mgr'.subscriptionId = mgr.subscriptionId
  left : ∃ removed, mgr.subscriptionList.Perm (removed ++ mgr'.subscriptionList)

structure Starts (subscription : SubscriptionState) (mgr mgr' : Manager) : Prop where
  subscriptionId : mgr'.subscriptionId = wrap64 (mgr.subscriptionId + 1)
  identities : mgr'.subscriptionList.map identity =
    (mgr.subscriptionList ++ [subscription]).map identity

theorem Removes.of_same (subId : mgr'.subscriptionId = mgr.subscriptionId)
    (list : mgr'.subscriptionList = mgr.subscriptionList) : Removes mgr mgr' :=
  ⟨subId, [], by rw [list, nil_append]⟩

theorem Removes.trans (first : Removes mgr mgr') (second : Removes mgr' mgr'') :
    Removes mgr mgr'' where
  subscriptionId := second.subscriptionId.trans first.subscriptionId
  left := by
    obtain ⟨early, perm⟩ := first.left
    obtain ⟨late, perm'⟩ := second.left
    refine ⟨early ++ late, perm.trans ?_⟩
    rw [append_assoc]
    exact perm'.append_left early

theorem stopSubscription_subscriptionId (sub : SubscriptionState) :
    (stopSubscription sub mgr).subscriptionId = mgr.subscriptionId := by
  simp only [stopSubscription, deactivateInterval]
  split_ifs
  · split <;> rfl
  · rfl
  · rfl

theorem deactivateSubscription_ends {subId : Str}
    (done : deactivateSubscription subId mgr = some mgr') :
    ∃ sub, sub.subscriptionId = atoiClamped subId ∧
      mgr.subscriptionList.Perm (sub :: mgr'.subscriptionList) ∧
      mgr'.subscriptionId = mgr.subscriptionId := by
  simp only [deactivateSubscription] at done
  split at done
  · cases done
  · next index found =>
    obtain ⟨sub, here, rfl⟩ := map_eq_some_iff.mp done
    obtain ⟨inside, number, -⟩ := findIdx?_eq_some_iff_getElem.mp found
    rw [getElem?_eq_getElem inside] at here
    cases here
    exact ⟨_, of_decide_eq_true number,
      removeFromsubscriptionList_perm (getElem?_eq_getElem inside),
      stopSubscription_subscriptionId _⟩

theorem deactivateSubscription_removes {subId : Str}
    (done : deactivateSubscription subId mgr = some mgr') : Removes mgr mgr' := by
  obtain ⟨sub, -, perm, counter⟩ := deactivateSubscription_ends done
  exact ⟨counter, [sub], perm⟩

theorem scanAndRemoveListItem_removes (routerId : Str) :
    Removes mgr (scanAndRemoveListItem routerId mgr).2 := by
  simp only [scanAndRemoveListItem]
  split
  · exact .of_same rfl rfl
  · next sub _ =>
    cases done : deactivateSubscription (itoa sub.subscriptionId) mgr with
    | none => exact .of_same rfl rfl
    | some => exact deactivateSubscription_removes done

theorem killSubscriptions_removes (routerId : Str) (rounds : Nat) :
    Removes mgr (killSubscriptions routerId rounds mgr) := by
  induction rounds generalizing mgr with
  | zero => exact .of_same rfl rfl
  | succ rounds ih =>
    have round := @scanAndRemoveListItem_removes mgr routerId
    rw [killSubscriptions]
    split
    · next scanned =>
      rw [scanned] at round
      exact round.trans ih
    · next scanned =>
      rw [scanned] at round
      exact round

theorem refuse_removes (request : Map Value) (refusal : Refusal) :
    (refuse env request refusal mgr).Returns (Removes mgr) := by
  rintro result ⟨⟩
  exact .of_same rfl rfl

theorem handleServiceUnsubscribe_removes :
    (handleServiceUnsubscribe env request mgr).Returns (Removes mgr) := by
  simp only [handleServiceUnsubscribe]
  split
  · exact refuse_removes _ _
  · split
    · next done =>
      rintro result ⟨⟩
      exact deactivateSubscription_removes done
    · exact refuse_removes _ _

theorem handleInternalCancelSubscription_removes :
    (handleInternalCancelSubscription env request mgr).Returns (Removes mgr) := by
  simp only [handleInternalCancelSubscription]
  split
  · exact returns_pure (.of_same rfl rfl)
  · split_ifs
    · exact returns_pure (.of_same rfl rfl)
    · refine (refuse_removes _ _).bind ?_
      intro refused removes
      exact returns_pure (removes.trans (scanAndRemoveListItem_removes _))

theorem handleServiceSubscribe_starts :
    (handleServiceSubscribe env request mgr).Returns fun mgr' => Removes mgr mgr' ∨
      ∃ sub, readSubscription env request mgr.subscriptionId = .ok sub ∧
        Starts sub mgr mgr' := by
  simp only [handleServiceSubscribe]
  split
  · intro result returned
    exact .inl (refuse_removes _ _ result returned)
  · next sub read =>
    refine (activateIfIntervalOrCL_activates _ _ _).bind ?_
    intro active activates
    refine returns_bind ?_
    rintro _ _ result ⟨⟩
    refine .inr ⟨sub, read, ?_, activates.identities⟩
    rw [activates.subscriptionId]

def Action.isSubscription : Action → Bool
  | .subscribe => true
  | .unsubscribe => true
  | .killSubscriptions => true
  | .cancelSubscription => true
  | _ => false

theorem handleRequest_subscriptions (kind : (actionOf request).isSubscription = true) :
    (handleRequest env request mgr).Returns fun mgr' => Removes mgr mgr' ∨
      actionOf request = .subscribe ∧
        ∃ sub, readSubscription env request mgr.subscriptionId = .ok sub ∧
          Starts sub mgr mgr' := by
  intro mgr' returned
  cases action : actionOf request with
  | subscribe =>
    simp only [handleRequest, action] at returned
    simpa using handleServiceSubscribe_starts mgr' returned
  | unsubscribe =>
    simp only [handleRequest, action] at returned
    exact .inl (handleServiceUnsubscribe_removes mgr' returned)
  | killSubscriptions =>
    simp only [handleRequest, action] at returned
    cases returned
    refine .inl ?_
    simp only [handleInternalKillSubscriptions]
    split
    · exact .of_same rfl rfl
    · exact killSubscriptions_removes _ _
  | cancelSubscription =>
    simp only [handleRequest, action] at returned
    exact .inl (handleInternalCancelSubscription_removes mgr' returned)
  | _ =>
    rw [action] at kind
    cases kind

def subscriptionMachine : Machine Manager (Env × Map Value) Unit where
  init mgr := mgr = {}
  step mgr asked :=
    if (actionOf asked.2).isSubscription then
      ((handleRequest asked.1 asked.2 mgr).result).map fun mgr' => (mgr', ())
    else none

theorem subscriptionMachine_step (kind : (actionOf request).isSubscription = true)
    (returned : (handleRequest env request mgr).result = some mgr') :
    subscriptionMachine.step mgr (env, request) = some (mgr', ()) := by
  simp only [subscriptionMachine, kind, if_true, returned, map_some]

def subscribeCount (history : History Manager (Env × Map Value) Unit) : Nat :=
  history.countP fun t => actionOf t.event.2 = .subscribe

theorem fitsInt_wrap64 (n : Int) : fitsInt (wrap64 n) = true := by
  rw [fitsInt_iff, wrap64]
  omega

theorem wrap64_injective {i j : Nat} (small : i < 2 ^ 64) (less : j < i) :
    wrap64 (1 + i) ≠ wrap64 (1 + j) := by
  simp only [wrap64]
  omega

/-- The numbers in use are some of the first ones that were given. -/
structure Issued (count : Nat) (mgr : Manager) : Prop where
  counter : mgr.subscriptionId = wrap64 (1 + count)
  issued : ∀ subscription ∈ mgr.subscriptionList,
    ∃ number < count, subscription.subscriptionId = wrap64 (1 + (number : Int))
  distinct : (mgr.subscriptionList.map subscriptionId).Nodup

variable {count : Nat}

theorem Issued.numbered (issued : Issued count mgr) : Numbered mgr.subscriptionList where
  distinct := issued.distinct
  fits := by
    intro sub mem
    obtain ⟨number, -, same⟩ := issued.issued sub mem
    rw [same]
    exact fitsInt_wrap64 _

theorem Issued.removes (issued : Issued count mgr) (removes : Removes mgr mgr') :
    Issued count mgr' := by
  obtain ⟨removed, perm⟩ := removes.left
  constructor
  · rw [removes.subscriptionId]
    exact issued.counter
  · intro sub mem
    exact issued.issued sub (perm.mem_iff.mpr (mem_append_right _ mem))
  · exact (issued.numbered.perm perm).of_append.distinct

theorem readSubscription_spec {subId : Int}
    (read : readSubscription env request subId = .ok subscription) :
    subscription.subscriptionId = subId ∧ subscription.path ≠ [] ∧
      ∃ pathStr, getStr request "path" = some pathStr ∧
        unpackPaths pathStr = some subscription.path := by
  simp only [readSubscription] at read
  split at read
  · next routerId pathStr _ given =>
    split at read
    · cases read
    · cases read
    · next first rest unpacked =>
      split_ifs at read
      cases gating : gatingIdOf request with
      | error =>
        rw [gating] at read
        cases read
      | ok =>
        rw [gating] at read
        cases read
        exact ⟨rfl, cons_ne_nil _ _, pathStr, given, unpacked⟩
  · cases read

theorem ids_of_identities {l' : List SubscriptionState}
    (same : l.map identity = l'.map identity) :
    l.map subscriptionId = l'.map subscriptionId := by
  have ids := congrArg (List.map Identity.subscriptionId) same
  rw [List.map_map, List.map_map] at ids
  exact ids

section Appended

variable {l l' : List SubscriptionState} {id : Int}
  (ids : l'.map subscriptionId = l.map subscriptionId ++ [id])

include ids

theorem id_cases {other : SubscriptionState} (mem : other ∈ l') :
    (∃ earlier ∈ l, earlier.subscriptionId = other.subscriptionId) ∨ other.subscriptionId = id := by
  have listed := mem_map_of_mem (f := subscriptionId) mem
  rw [ids] at listed
  obtain before | new := mem_append.mp listed
  · exact .inl (mem_map.mp before)
  · exact .inr (mem_singleton.mp new)

theorem nodup_ids (distinct : (l.map subscriptionId).Nodup)
    (fresh : id ∉ l.map subscriptionId) :
    (l'.map subscriptionId).Nodup := by
  rw [ids, ← concat_eq_append]
  exact distinct.concat fresh

end Appended

theorem Issued.starts (issued : Issued count mgr)
    (number : subscription.subscriptionId = mgr.subscriptionId)
    (starts : Starts subscription mgr mgr') (few : count < 2 ^ 64) : Issued (count + 1) mgr' := by
  have ids := ids_of_identities starts.identities
  rw [map_append, map_singleton, number, issued.counter] at ids
  constructor
  · rw [starts.subscriptionId, issued.counter]
    simp only [wrap64]
    omega
  · intro other mem
    obtain ⟨earlier, there, same⟩ | new := id_cases ids mem
    · obtain ⟨given, less, given_same⟩ := issued.issued earlier there
      exact ⟨given, lt_succ_of_lt less, by rw [← same, given_same]⟩
    · exact ⟨count, lt_succ_self count, new⟩
  · refine nodup_ids ids issued.distinct ?_
    intro before
    obtain ⟨earlier, there, same⟩ := mem_map.mp before
    obtain ⟨given, less, given_same⟩ := issued.issued earlier there
    exact wrap64_injective few less (same.symm.trans given_same)

theorem issued_of_run {history : History Manager (Env × Map Value) Unit}
    (run : Run subscriptionMachine anyStep history mgr) (few : subscribeCount history ≤ 2 ^ 64) :
    ∃ count ≤ subscribeCount history, Issued count mgr := by
  induction run with
  | start mgr begins =>
    rw [show mgr = {} from begins]
    exact ⟨0, le_refl 0, ⟨rfl, nofun, nodup_nil⟩⟩
  | @step history t run taken _ ih =>
    have counted : subscribeCount (t :: history) =
        subscribeCount history + if actionOf t.event.2 = .subscribe then 1 else 0 := by
      simp [subscribeCount, countP_cons]
    obtain ⟨count, small, issued⟩ := ih (by omega)
    simp only [subscriptionMachine] at taken
    split_ifs at taken with kind
    obtain ⟨after, returned, same⟩ := map_eq_some_iff.mp taken
    have result : after = t.after := congrArg Prod.fst same
    subst result
    obtain removes | ⟨action, sub, read, starts⟩ :=
      handleRequest_subscriptions kind _ returned
    · exact ⟨count, by omega, issued.removes removes⟩
    · rw [if_pos action] at counted
      exact ⟨count + 1, by omega, issued.starts (readSubscription_spec read).1 starts (by omega)⟩

/-- A client's subscriptions and no others are ended, after at most 2 ^ 64 requests. -/
theorem kill_ends_client {history : History Manager (Env × Map Value) Unit}
    (run : Run subscriptionMachine anyStep history mgr) (few : subscribeCount history ≤ 2 ^ 64)
    (requestMap : Map Value) (routerId : Str)
    (client : getStr requestMap "RouterId" = some routerId) :
    KillLoop routerId mgr (handleInternalKillSubscriptions requestMap mgr) ∧
      (handleInternalKillSubscriptions requestMap mgr).subscriptionList.Perm
        (othersOf routerId mgr.subscriptionList) := by
  obtain ⟨count, -, issued⟩ := issued_of_run run few
  simp only [handleInternalKillSubscriptions, client]
  exact killSubscriptions_spec issued.numbered (le_refl _)

end Reachable

variable (routerId : Str)

def speedSubscribe : Map Value :=
  [("action", .str "subscribe"), ("RouterId", .str routerId), ("path", .str "Vehicle.Speed"),
    ("filter", .obj [("variant", .str "change"), ("parameter", .str [])])]

def unsubscribeOf (subscriptionId : Int) : Map Value :=
  [("action", .str "unsubscribe"), ("RouterId", .str "2?2"),
    ("subscriptionId", .str (itoa subscriptionId))]

def killClient : Map Value :=
  [("action", .str "internal-killsubscriptions"), ("RouterId", .str routerId)]

theorem kill_ends_one_of_two_clients : ∃ history mgr, Run subscriptionMachine anyStep history mgr ∧
      subscribeCount history ≤ 2 ^ 64 ∧
      mgr.subscriptionList.map SubscriptionState.routerId = ["1?1".toList, "2?2", "1?1"] ∧
      KillLoop "1?1" mgr (handleInternalKillSubscriptions (killClient "1?1") mgr) ∧
      (handleInternalKillSubscriptions (killClient "1?1") mgr).subscriptionList.Perm
        (othersOf "1?1" mgr.subscriptionList) := by
  rcases Run.of_exec subscriptionMachine {} rfl
    [(sampleEnv, speedSubscribe "1?1"), (sampleEnv, speedSubscribe "2?2"),
      (sampleEnv, speedSubscribe "1?1")]
    (fun history mgr => subscribeCount history = 3 ∧
      mgr.subscriptionList.map routerId = ["1?1".toList, "2?2", "1?1"])
    (by decide +kernel) with ⟨history, mgr, run, counted, clients⟩
  have few : subscribeCount history ≤ 2 ^ 64 := by
    rw [counted]
    decide
  exact ⟨history, mgr, run, few, clients,
    kill_ends_client run few (killClient "1?1") "1?1" rfl⟩

def speedSubscription (subscriptionId : Int) : SubscriptionState where
  subscriptionId := subscriptionId
  routerId := routerId
  path := ["Vehicle.Speed"]
  filterList := [⟨"change", []⟩]
  latestDataPoint := sampleEnv.getVehicleData "Vehicle.Speed"

def managerWith (subscriptionList : List SubscriptionState) (subscriptionId : Int) : Manager :=
  { subscriptionList, subscriptionId }

theorem unsubscribe_managerWith (routerId routerId' : Str) {i j n : Int} (other : i ≠ j)
    (fits : fitsInt j = true) : (handleRequest sampleEnv (unsubscribeOf j)
        (managerWith [speedSubscription routerId i, speedSubscription routerId' j] n)).result =
      some (managerWith [speedSubscription routerId i] n) := by
  have found : getSubcriptionStateIndex j
      [speedSubscription routerId i, speedSubscription routerId' j] = some 1 := by
    simp [getSubcriptionStateIndex, findIdx?_cons, speedSubscription, other]
  have done : deactivateSubscription (itoa j)
      (managerWith [speedSubscription routerId i, speedSubscription routerId' j] n) =
        some (managerWith [speedSubscription routerId i] n) := by
    simp only [deactivateSubscription, atoiClamped_itoa j fits, managerWith, found]
    rfl
  show (handleServiceUnsubscribe sampleEnv (unsubscribeOf j) _).result = _
  have given : getStr (unsubscribeOf j) "subscriptionId" = some (itoa j) := rfl
  simp only [handleServiceUnsubscribe, given, done]
  rfl

theorem run_rounds (rounds : Nat) (few : rounds < 2 ^ 64) :
    ∃ history, Run subscriptionMachine anyStep history
      (managerWith [speedSubscription "1?1" 1] (wrap64 (2 + rounds))) := by
  induction rounds with
  | zero =>
    have start : Run subscriptionMachine anyStep [] (managerWith [] 1) := .start _ rfl
    exact ⟨_, Run.step (t := ⟨_, (sampleEnv, speedSubscribe "1?1"), _, ()⟩) start rfl trivial⟩
  | succ rounds ih =>
    obtain ⟨history, run⟩ := ih (by omega)
    have subscribed := Run.step (t := ⟨_, (sampleEnv, speedSubscribe "2?2"),
      managerWith [speedSubscription "1?1" 1, speedSubscription "2?2" (wrap64 (2 + rounds))]
        (wrap64 (wrap64 (2 + rounds) + 1)), ()⟩) run rfl trivial
    have other : 1 ≠ wrap64 (2 + (rounds : Int)) := by
      simp only [wrap64]
      omega
    have next : wrap64 (wrap64 (2 + (rounds : Int)) + 1) = wrap64 (2 + ((rounds + 1 : Nat) : Int)) := by
      simp only [wrap64]
      omega
    rw [next] at subscribed
    have removed := unsubscribe_managerWith "1?1" "2?2"
      (n := wrap64 (2 + ((rounds + 1 : Nat) : Int))) other (fitsInt_wrap64 _)
    exact ⟨_, Run.step (t := ⟨_, (sampleEnv, unsubscribeOf (wrap64 (2 + rounds))), _, ()⟩)
      subscribed (subscriptionMachine_step rfl removed) trivial⟩

/-- The number of a subscription comes back for another client, and a kill ends both. -/
theorem kill_ends_other_client : ∃ history mgr, Run subscriptionMachine anyStep history mgr ∧
      ¬ (handleInternalKillSubscriptions (killClient "2?2") mgr).subscriptionList.Perm
        (othersOf "2?2" mgr.subscriptionList) := by
  obtain ⟨history, run⟩ := run_rounds (2 ^ 64 - 1) (by omega)
  have back : wrap64 (2 + ((2 ^ 64 - 1 : Nat) : Int)) = 1 := by decide +kernel
  rw [back] at run
  refine ⟨_, _, Run.step (t := ⟨_, (sampleEnv, speedSubscribe "2?2"),
    managerWith [speedSubscription "1?1" 1, speedSubscription "2?2" 1] (wrap64 2), ()⟩)
      run rfl trivial, ?_⟩
  intro perm
  have length := perm.length_eq
  revert length
  decide +kernel

end Vissr.ServiceMgr
