import Vissr.Transport.Http

/-! The hub of the MQTT manager (`mqttMgr/mqttMgr.go`): a list has a reply topic for each request
id. -/

namespace Vissr.Transport.Mqtt

open Json List Option

structure NodeValue where
  topicId : Int
  topic : Str
  subscriptionId : Str := []
  unsubscribeTarget : Str := []
  deriving DecidableEq

structure TopicList where
  head : List NodeValue := []
  nodes : Int := 0

variable (topicId : Int)

def findTopicLocked (topicList : TopicList) : Option NodeValue :=
  topicList.head.find? fun n => n.topicId = topicId

def pushTopic (topic : Str) (topicId : Int) (topicList : TopicList) : TopicList where
  head := topicList.head ++ [{ topicId, topic }]
  nodes := topicList.nodes + 1

def popTopicLocked (topicList : TopicList) : TopicList :=
  if (findTopicLocked topicId topicList).isSome then
    { head := topicList.head.eraseP fun n => n.topicId = topicId, nodes := topicList.nodes - 1 }
  else topicList

def writeTopic (write : NodeValue → NodeValue) (topicList : TopicList) :
    TopicList :=
  { topicList with
    head := topicList.head.replaceF fun n => if n.topicId = topicId then some (write n) else none }

def registerRequest (topic : Str) (topicId : Int) (request : Str) (topicList : TopicList) :
    TopicList :=
  let topicList := pushTopic topic topicId topicList
  match unmarshalMap request with
  | none => topicList
  | some requestMap =>
    if getStr requestMap "action" = some "unsubscribe".toList then
      match getStr requestMap "subscriptionId" with
      | some target => writeTopic topicId (fun n => { n with unsubscribeTarget := target }) topicList
      | none => topicList
    else topicList

/-- The rows of the table of `routeResponse`. -/
inductive Reply where
  | single
  | subscribe
  | subscription
  | unsubscribe
  | other
  deriving DecidableEq

variable (responseMap : Map Value)

def replyOf : Reply :=
  match getStr responseMap "action" with
  | none => .other
  | some action =>
    if action = "get" ∨ action = "set" ∨ action = "discover" then .single
    else if action = "subscribe" then .subscribe
    else if action = "subscription" then .subscription
    else if action = "unsubscribe" then .unsubscribe
    else .other

def isError : Bool :=
  match responseMap.lookup "error".toList with
  | none | some .null => false
  | some _ => true

def subscriptionIdOf : Option Str := getStr responseMap "subscriptionId"

def settle (node : NodeValue) (responseMap : Map Value) (topicList : TopicList) :
    TopicList :=
  match replyOf responseMap with
  | .single => popTopicLocked topicId topicList
  | .subscribe =>
    if isError responseMap then popTopicLocked topicId topicList
    else
      match subscriptionIdOf responseMap with
      | some subscriptionId => writeTopic topicId (fun n => { n with subscriptionId }) topicList
      | none => topicList
  | .subscription => if isError responseMap then popTopicLocked topicId topicList else topicList
  | .unsubscribe =>
    let topicList := popTopicLocked topicId topicList
    if isError responseMap = false ∧ node.unsubscribeTarget ≠ [] then
      match topicList.head.find? fun n => n.subscriptionId = node.unsubscribeTarget with
      | some n => popTopicLocked n.topicId topicList
      | none => topicList
    else topicList
  | .other => topicList

def routeResponse (response : Str) (topicList : TopicList) : Str × TopicList :=
  match findTopicLocked topicId topicList with
  | none => ([], topicList)
  | some node =>
    match unmarshalMap response with
    | none => (node.topic, topicList)
    | some responseMap => (node.topic, settle topicId node responseMap topicList)

/-- `json.Marshal` cannot fail on what was decoded. -/
def decomposeMqttPayload (mqttPayload : Str) : Str × Str :=
  let payloadMap := (mapRequest mqttPayload).1
  match getStr payloadMap "topic" with
  | none => ([], [])
  | some topic => (topic, ((payloadMap.lookup "request".toList).getD .null).marshal)

/-- A text that was decoded is valid UTF-8. -/
def isValidReplyTopic (topic : Str) : Bool :=
  decide (topic ≠ [] ∧ (topic.map Char.utf8Size).sum ≤ 65535 ∧
    topic.all fun c => c ≠ '+' ∧ c ≠ '#' ∧ c ≠ '\x00')

structure State where
  topicList : TopicList := {}
  topicId : Int := 0
  errorResponseMap : Map Value := []

/-- A request goes to the core, or a text is published on a topic. -/
structure Output where
  forwarded : Option (Int × Str) := none
  published : Option (Str × Str) := none

inductive Event where
  | broker (mqttPayload rfcTime : Str)
  | core (vissv2Message : Str)

def publishMessage (topic payload : Str) : Output :=
  { published := if topic = [] then none else some (topic, payload) }

variable (mgrId : Int) (jsonSchemaValidate : Str → Str)

def handleBrokerMessage (mqttPayload rfcTime : Str) (s : State) : State × Output :=
  let (topic, payload) := decomposeMqttPayload mqttPayload
  if topic.length = 0 then (s, {})
  else if isValidReplyTopic topic = false then (s, {})
  else
    let validationError := jsonSchemaValidate payload
    if validationError ≠ [] then
      let errorResponseMap :=
        setErrorResponse rfcTime (mapRequest payload).1 s.errorResponseMap 0 validationError
      ({ s with errorResponseMap }, publishMessage topic (finalizeMessage errorResponseMap))
    else
      match withRoutingInfo payload mgrId s.topicId with
      | none => (s, {})
      | some request =>
        ({ s with
            topicList := registerRequest topic s.topicId payload s.topicList
            topicId := wrap64 (s.topicId + 1) },
          { forwarded := some (s.topicId, request) })

/-- `none` is a panic of `RemoveInternalData`. -/
def handleServerCoreMessage (vissv2Message : Str) (s : State) : Option (State × Output) :=
  (removeInternalData vissv2Message).map fun (payload, topicHandle) =>
    let (topic, topicList) := routeResponse topicHandle payload s.topicList
    ({ s with topicList }, publishMessage topic payload)

/-- The loop of `runHub`, without a stop. -/
def hubMachine : Machine State Event Output where
  init s := s = {}
  step s
    | .broker mqttPayload rfcTime =>
      some (handleBrokerMessage mgrId jsonSchemaValidate mqttPayload rfcTime s)
    | .core vissv2Message => handleServerCoreMessage vissv2Message s

def State.entry (s : State) (topicId : Int) : Option NodeValue := findTopicLocked topicId s.topicList

def isLast : Bool :=
  match replyOf responseMap with
  | .single | .unsubscribe => true
  | .subscribe | .subscription => isError responseMap
  | .other => false

/-- The message is the last one for the node, or the subscription has ended that `own` named and the
node is the first to have. -/
def Releases (head : List NodeValue) (own : NodeValue) (responseMap : Map Value) (n : NodeValue) :
    Prop :=
  n.topicId = own.topicId ∧ isLast responseMap = true ∨
    (replyOf responseMap = .unsubscribe ∧ isError responseMap = false ∧ own.unsubscribeTarget ≠ [] ∧
      head.find? (fun m => m.topicId ≠ own.topicId ∧ m.subscriptionId = own.unsubscribeTarget) =
        some n)
  deriving Decidable

def recorded (own : NodeValue) (responseMap : Map Value) (n : NodeValue) : NodeValue :=
  match replyOf responseMap with
  | .subscribe =>
    if n.topicId = own.topicId ∧ isError responseMap = false then
      { n with subscriptionId := (subscriptionIdOf responseMap).getD n.subscriptionId }
    else n
  | _ => n

/-- What becomes of a node by a message for `own`. -/
def afterwards (head : List NodeValue) (own : NodeValue) (responseMap : Map Value)
    (n : NodeValue) : Option NodeValue :=
  if Releases head own responseMap n then none else some (recorded own responseMap n)

def State.routed (s : State) (vissv2Message : Str) (topicId : Int) : Option NodeValue :=
  match removeInternalData vissv2Message with
  | none => s.entry topicId
  | some (payload, topicHandle) =>
    match s.entry topicHandle, unmarshalMap payload with
    | some own, some responseMap =>
      (s.entry topicId).bind (afterwards s.topicList.head own responseMap)
    | _, _ => s.entry topicId

def forwardedIds (history : History State Event Output) : List Int :=
  history.filterMap fun t => t.output.forwarded.map Prod.fst

/-- The topic that was registered for an id, until its entry is released. -/
def replyTopic : History State Event Output → Int → Option Str
  | [], _ => none
  | t :: history, topicId =>
    match t.event with
    | .broker mqttPayload _ =>
      if t.output.forwarded.map Prod.fst = some topicId then
        some (decomposeMqttPayload mqttPayload).1
      else replyTopic history topicId
    | .core vissv2Message =>
      if t.before.routed vissv2Message topicId = none then none
      else replyTopic history topicId

/-- What holds of the hub in a state that it has come to. -/
structure Routes (machine : Machine State Event Output) (history : History State Event Output)
    (s : State) : Prop where
  increasing : (forwardedIds history).Pairwise (· > ·)
  counted : s.topicList.nodes = s.topicList.head.length
  distinct : (s.topicList.head.map NodeValue.topicId).Nodup
  published : ∀ vissv2Message payload topicId,
    removeInternalData vissv2Message = some (payload, topicId) →
      ∃ s', machine.step s (.core vissv2Message) = some (s',
        { published := (replyTopic history topicId).map fun topic => (topic, payload) })
  released : ∀ vissv2Message s' output, machine.step s (.core vissv2Message) = some (s', output) →
      ∀ topicId, s'.entry topicId = s.routed vissv2Message topicId
  kept : ∀ mqttPayload rfcTime s' output,
    machine.step s (.broker mqttPayload rfcTime) = some (s', output) →
      ∀ topicId n, s.entry topicId = some n → s'.entry topicId = some n

variable {l : List NodeValue} {topicList : TopicList} {topicId : Int}

/-- In the order of their ids, so that no id is there twice. -/
def Sorted (l : List NodeValue) : Prop := l.Pairwise fun m n => m.topicId < n.topicId

section

variable (sorted : Sorted l)

include sorted

theorem eraseP_eq_filterMap (topicId : Int) : (l.eraseP fun n => n.topicId = topicId) =
      l.filterMap fun n => if n.topicId = topicId then none else some n := by
  induction l with
  | nil => rfl
  | cons n l ih =>
    have above := (pairwise_cons.mp sorted).1
    by_cases same : n.topicId = topicId
    · have others : ∀ m ∈ l, (if m.topicId = topicId then none else some m) = some m := by
        intro m mem
        exact if_neg (by have := above m mem; omega)
      rw [eraseP_cons_of_pos (by simpa using same),
        filterMap_cons_none (by rw [if_pos same]), filterMap_congr others]
      exact filterMap_some.symm
    · rw [eraseP_cons_of_neg (by simpa using same),
        filterMap_cons_some (by rw [if_neg same]), ih (pairwise_cons.mp sorted).2]

theorem replaceF_eq_filterMap (topicId : Int) (write : NodeValue → NodeValue) :
    (l.replaceF fun n => if n.topicId = topicId then some (write n) else none) =
      l.filterMap fun n => some (if n.topicId = topicId then write n else n) := by
  induction l with
  | nil => rfl
  | cons n l ih =>
    have above := (pairwise_cons.mp sorted).1
    by_cases same : n.topicId = topicId
    · have others : ∀ m ∈ l, some (if m.topicId = topicId then write m else m) = some m := by
        intro m mem
        rw [if_neg (by have := above m mem; omega)]
      simp only [replaceF, filterMap_cons, if_pos same, filterMap_congr others, filterMap_some]
    · simp only [replaceF, filterMap_cons, if_neg same, ih (pairwise_cons.mp sorted).2]

theorem find_filterMap {g : NodeValue → Option NodeValue}
    (keeps : ∀ n m, g n = some m → m.topicId = n.topicId) (topicId : Int) :
    ((l.filterMap g).find? fun n => n.topicId = topicId) =
      (l.find? fun n => n.topicId = topicId).bind g := by
  induction l with
  | nil => rfl
  | cons n l ih =>
    have above := (pairwise_cons.mp sorted).1
    have rest := ih (pairwise_cons.mp sorted).2
    by_cases same : n.topicId = topicId
    · rw [find?_cons_of_pos (by simpa using same), bind_some]
      cases kept : g n with
      | some m =>
        rw [filterMap_cons_some kept, find?_cons_of_pos]
        simpa using (keeps n m kept).trans same
      | none =>
        rw [filterMap_cons_none kept, rest, find?_eq_none.mpr]
        · rfl
        · intro m mem
          have := above m mem
          simp only [decide_eq_true_eq]
          omega
    · rw [find?_cons_of_neg (by simpa using same), ← rest]
      cases kept : g n with
      | some m =>
        rw [filterMap_cons_some kept, find?_cons_of_neg]
        simpa using fun here => same ((keeps n m kept).symm.trans here)
      | none => rw [filterMap_cons_none kept]

theorem Sorted.nodup : (l.map NodeValue.topicId).Nodup := pairwise_map.mpr (sorted.imp ne_of_lt)

theorem Sorted.filterMap {g : NodeValue → Option NodeValue}
    (keeps : ∀ n m, g n = some m → m.topicId = n.topicId) : Sorted (l.filterMap g) := by
  apply List.Pairwise.filterMap g _ sorted
  intro m n less m' kept n' kept'
  rw [keeps m m' kept, keeps n n' kept']
  exact less

end

variable {own : NodeValue} {responseMap : Map Value}

theorem pop_head (sorted : Sorted topicList.head) (topicId : Int) :
    (popTopicLocked topicId topicList).head =
      topicList.head.filterMap fun n => if n.topicId = topicId then none else some n := by
  rw [popTopicLocked, ← eraseP_eq_filterMap sorted]
  split_ifs with found
  · rfl
  · rw [eraseP_of_forall_not]
    intro n mem here
    exact found (find?_isSome.mpr ⟨n, mem, here⟩)

theorem pop_counted (counted : topicList.nodes = topicList.head.length) (topicId : Int) :
    (popTopicLocked topicId topicList).nodes = (popTopicLocked topicId topicList).head.length := by
  rw [popTopicLocked]
  split_ifs with found
  · obtain ⟨n, mem, here⟩ := find?_isSome.mp found
    have shorter : (topicList.head.eraseP fun n => decide (n.topicId = topicId)).length =
        topicList.head.length - 1 := length_eraseP_of_mem mem here
    have some_left := length_pos_of_mem mem
    simp only [shorter]
    omega
  · exact counted

theorem settle_counted (counted : topicList.nodes = topicList.head.length) :
    (settle topicId own responseMap topicList).nodes =
      (settle topicId own responseMap topicList).head.length := by
  have popped := pop_counted counted topicId
  simp only [settle, writeTopic]
  repeat' split
  all_goals first
    | exact counted
    | exact popped
    | exact pop_counted popped _
    | exact counted.trans (by rw [length_replaceF])

theorem afterwards_keeps {head : List NodeValue} (n m : NodeValue)
    (kept : afterwards head own responseMap n = some m) :
    m.topicId = n.topicId ∧ m.topic = n.topic := by
  rw [afterwards] at kept
  split_ifs at kept
  cases kept
  rw [recorded]
  split
  · split_ifs <;> exact ⟨rfl, rfl⟩
  · exact ⟨rfl, rfl⟩

theorem pop_keeps (topicId : Int) (n m : NodeValue)
    (kept : (if n.topicId = topicId then none else some n) = some m) : m.topicId = n.topicId := by
  split_ifs at kept
  cases kept
  rfl

theorem find_popped (sorted : Sorted topicList.head) (topicId : Int) (target : Str) :
    ((popTopicLocked topicId topicList).head.find? fun n => n.subscriptionId = target) =
      topicList.head.find? fun m => m.topicId ≠ topicId ∧ m.subscriptionId = target := by
  have same : (fun n : NodeValue => (if n.topicId = topicId then none else some n).any fun n =>
      decide (n.subscriptionId = target)) =
        fun m => decide (m.topicId ≠ topicId ∧ m.subscriptionId = target) := by
    funext n
    by_cases here : n.topicId = topicId <;> simp [here]
  rw [pop_head sorted, find?_filterMap, same]
  cases found : topicList.head.find? fun m =>
      decide (m.topicId ≠ topicId ∧ m.subscriptionId = target) with
  | none => rfl
  | some =>
    have both := find?_some found
    rw [decide_eq_true_eq] at both
    exact if_neg both.1

theorem settle_head (sorted : Sorted topicList.head) :
    (settle own.topicId own responseMap topicList).head =
      topicList.head.filterMap (afterwards topicList.head own responseMap) := by
  have popped := pop_head sorted own.topicId
  have table : afterwards topicList.head own responseMap = fun n =>
      if Releases topicList.head own responseMap n then none
      else some (recorded own responseMap n) := rfl
  rw [settle, table]
  cases reply : replyOf responseMap with
  | single => simpa [Releases, recorded, isLast, reply] using popped
  | other => simp [Releases, recorded, isLast, reply]
  | subscription =>
    cases error : isError responseMap with
    | true => simpa [Releases, recorded, isLast, reply, error] using popped
    | false => simp [Releases, recorded, isLast, reply, error]
  | subscribe =>
    cases error : isError responseMap with
    | true => simpa [Releases, recorded, isLast, reply, error] using popped
    | false =>
      cases given : subscriptionIdOf responseMap with
      | none => simp [Releases, recorded, isLast, reply, error, given]
      | some subscriptionId =>
        simpa [Releases, recorded, isLast, reply, error, given, writeTopic] using
          replaceF_eq_filterMap sorted own.topicId fun n => { n with subscriptionId }
  | unsubscribe =>
    simp only [find_popped sorted, Releases, recorded, isLast, reply, and_true, true_and]
    by_cases ended : isError responseMap = false ∧ own.unsubscribeTarget ≠ []
    · rw [if_pos ended]
      split
      · next n found =>
        have second : Sorted (popTopicLocked own.topicId topicList).head := by
          rw [popped]
          exact sorted.filterMap (pop_keeps _)
        rw [pop_head second, popped, filterMap_filterMap]
        apply filterMap_congr
        intro m mem
        have unique : m.topicId = n.topicId ↔ n = m := by
          constructor
          · intro same
            exact inj_on_of_nodup_map sorted.nodup (mem_of_find?_eq_some found)
              mem same.symm
          · rintro rfl
            rfl
        simp only [found, some.injEq]
        by_cases here : m.topicId = own.topicId <;> simp [here, ended, unique]
      · next nobody =>
        simp only [nobody, reduceCtorEq, and_false, or_false]
        exact popped
    · rw [if_neg ended]
      simp only [← and_assoc, ended, false_and, or_false]
      exact popped

section Runs

variable {mgrId : Int} {jsonSchemaValidate : Str → Str} {history : History State Event Output}
  {s s' : State} {output : Output}

structure Registered (history : History State Event Output) (s : State) : Prop where
  increasing : (forwardedIds history).Pairwise (· > ·)
  next : s.topicId = wrap64 (forwardedIds history).length
  given : ∀ topicId ∈ forwardedIds history, 0 ≤ topicId ∧ topicId < (forwardedIds history).length
  counted : s.topicList.nodes = s.topicList.head.length
  sorted : Sorted s.topicList.head
  nodes : ∀ n ∈ s.topicList.head,
    (0 ≤ n.topicId ∧ n.topicId < (forwardedIds history).length) ∧ n.topic ≠ []
  topics : ∀ topicId, (s.entry topicId).map NodeValue.topic = replyTopic history topicId

variable {topicId : Int} {n : NodeValue}

/-- After the last id that is not negative comes the least one. -/
theorem Registered.fresh (reg : Registered history s) (few : (forwardedIds history).length ≤ 2 ^ 63) :
    ∀ n ∈ s.topicList.head, n.topicId ≠ s.topicId := by
  intro n mem
  have given := (reg.nodes n mem).1
  rw [reg.next, wrap64]
  omega

theorem routed_topic {vissv2Message : Str} (routed : s.routed vissv2Message topicId = some n) :
    (s.entry topicId).map NodeValue.topic = some n.topic := by
  rw [State.routed] at routed
  split at routed
  · rw [routed, map_some]
  · split at routed
    · obtain ⟨m, here, kept⟩ := bind_eq_some_iff.mp routed
      rw [here, map_some, (afterwards_keeps m n kept).2]
    · rw [routed, map_some]

theorem Registered.route (reg : Registered history s) {vissv2Message payload : Str}
    {topicHandle : Int} (extracted : removeInternalData vissv2Message = some (payload, topicHandle))
    (list : s'.topicList = (routeResponse topicHandle payload s.topicList).2) :
    (∀ topicId, s'.entry topicId = s.routed vissv2Message topicId) ∧
      Sorted s'.topicList.head ∧ s'.topicList.nodes = s'.topicList.head.length ∧
      ∀ n ∈ s'.topicList.head,
        (0 ≤ n.topicId ∧ n.topicId < (forwardedIds history).length) ∧ n.topic ≠ [] := by
  simp only [State.entry, State.routed, extracted, list, routeResponse]
  cases found : findTopicLocked topicHandle s.topicList with
  | none => exact ⟨fun _ => rfl, reg.sorted, reg.counted, reg.nodes⟩
  | some own =>
    cases unmarshalMap payload with
    | none => exact ⟨fun _ => rfl, reg.sorted, reg.counted, reg.nodes⟩
    | some responseMap =>
      have here : own.topicId = topicHandle := by simpa using find?_some found
      rw [← here]
      have keeps : ∀ n m, afterwards s.topicList.head own responseMap n = some m →
          m.topicId = n.topicId := fun n m kept => (afterwards_keeps n m kept).1
      refine ⟨?_, ?_, settle_counted reg.counted, ?_⟩
      · intro topicId
        rw [findTopicLocked, settle_head reg.sorted, find_filterMap reg.sorted keeps]
        rfl
      · rw [settle_head reg.sorted]
        exact reg.sorted.filterMap keeps
      · rw [settle_head reg.sorted]
        intro m mem
        obtain ⟨n, known, kept⟩ := mem_filterMap.mp mem
        rw [(afterwards_keeps n m kept).1, (afterwards_keeps n m kept).2]
        exact reg.nodes n known

theorem replaceF_fresh (fresh : ∀ n ∈ l, n.topicId ≠ topicId) (new : n.topicId = topicId)
    (write : NodeValue → NodeValue) :
    ((l ++ [n]).replaceF fun n => if n.topicId = topicId then some (write n) else none) =
      l ++ [write n] := by
  induction l with
  | nil => simp [replaceF, new]
  | cons m l ih =>
    rw [forall_mem_cons] at fresh
    simp [replaceF, fresh.1, ih fresh.2]

theorem registerRequest_list (fresh : ∀ n ∈ topicList.head, n.topicId ≠ topicId)
    (topic request : Str) : ∃ n : NodeValue, n.topicId = topicId ∧ n.topic = topic ∧
      registerRequest topic topicId request topicList =
        { head := topicList.head ++ [n], nodes := topicList.nodes + 1 } := by
  simp only [registerRequest]
  split
  · exact ⟨_, rfl, rfl, rfl⟩
  · split_ifs
    · split
      · rw [writeTopic, pushTopic, replaceF_fresh fresh rfl]
        exact ⟨_, rfl, rfl, rfl⟩
      · exact ⟨_, rfl, rfl, rfl⟩
    · exact ⟨_, rfl, rfl, rfl⟩

theorem broker_cases (fresh : ∀ n ∈ s.topicList.head, n.topicId ≠ s.topicId)
    {mqttPayload rfcTime : Str}
    (handled : handleBrokerMessage mgrId jsonSchemaValidate mqttPayload rfcTime s = (s', output)) :
    (s'.topicList = s.topicList ∧ s'.topicId = s.topicId ∧ output.forwarded = none) ∨
      ∃ n request, n.topicId = s.topicId ∧ n.topic = (decomposeMqttPayload mqttPayload).1 ∧
        n.topic ≠ [] ∧ output.forwarded = some (s.topicId, request) ∧
        s'.topicId = wrap64 (s.topicId + 1) ∧
        s'.topicList = { head := s.topicList.head ++ [n], nodes := s.topicList.nodes + 1 } := by
  simp only [handleBrokerMessage] at handled
  split_ifs at handled with empty invalid refused
  · cases handled
    exact .inl ⟨rfl, rfl, rfl⟩
  · cases handled
    exact .inl ⟨rfl, rfl, rfl⟩
  · cases handled
    exact .inl ⟨rfl, rfl, rfl⟩
  · split at handled
    · cases handled
      exact .inl ⟨rfl, rfl, rfl⟩
    · next request _ =>
      cases handled
      rcases registerRequest_list fresh (decomposeMqttPayload mqttPayload).1
        (decomposeMqttPayload mqttPayload).2 with ⟨n, id, topic, list⟩
      refine .inr ⟨n, request, id, topic, ?_, rfl, rfl, list⟩
      rw [topic]
      exact mt length_eq_zero_iff.mpr empty

theorem find_concat {head : List NodeValue} (nodes : Int) (topicId : Int) :
    findTopicLocked topicId { head := head ++ [n], nodes } =
      (head.find? fun m => m.topicId = topicId).or (if n.topicId = topicId then some n else none) := by
  rw [findTopicLocked, find?_append]
  by_cases here : n.topicId = topicId <;> simp [here]

theorem registered_of_run (run : Run (hubMachine mgrId jsonSchemaValidate) anyStep history s) :
    (forwardedIds history).length ≤ 2 ^ 63 → Registered history s := by
  apply run.invariant fun history s => (forwardedIds history).length ≤ 2 ^ 63 → Registered history s
  · rintro s rfl _
    exact ⟨.nil, rfl, nofun, rfl, .nil, nofun, fun _ => rfl⟩
  · intro history t earlier taken _ few
    cases event : t.event with
    | core vissv2Message =>
      simp only [hubMachine, event, handleServerCoreMessage] at taken
      obtain ⟨⟨payload, topicHandle⟩, extracted, same⟩ := map_eq_some_iff.mp taken
      obtain ⟨after, made⟩ := Prod.mk.inj same
      have list : t.after.topicList =
          (routeResponse topicHandle payload t.before.topicList).2 := by rw [← after]
      have none_forwarded : forwardedIds (t :: history) = forwardedIds history := by
        rw [forwardedIds, filterMap_cons_none (by rw [← made]; rfl), forwardedIds]
      have reg := earlier (none_forwarded ▸ few)
      obtain ⟨entries, sorted, counted, nodes⟩ := reg.route extracted list
      refine ⟨none_forwarded ▸ reg.increasing, ?_, none_forwarded ▸ reg.given, counted, sorted,
        none_forwarded ▸ nodes, ?_⟩
      · rw [none_forwarded, ← after]
        exact reg.next
      · intro topicId
        simp only [replyTopic, event, entries topicId]
        cases routed : t.before.routed vissv2Message topicId with
        | none => rfl
        | some => rw [if_neg (by nofun), map_some, ← reg.topics, routed_topic routed]
    | broker =>
      simp only [hubMachine, event, some.injEq] at taken
      have less : (forwardedIds history).length ≤ (forwardedIds (t :: history)).length :=
        ((sublist_cons_self t history).filterMap _).length_le
      have reg := earlier (less.trans few)
      have fresh := reg.fresh (less.trans few)
      rcases broker_cases fresh taken with ⟨list, id, none_sent⟩ |
        ⟨n, request, id, topic, valid, sent, next, list⟩
      · have none_forwarded : forwardedIds (t :: history) = forwardedIds history := by
          rw [forwardedIds, filterMap_cons_none (by rw [none_sent]; rfl), forwardedIds]
        refine ⟨none_forwarded ▸ reg.increasing, ?_, none_forwarded ▸ reg.given, ?_, ?_, ?_, ?_⟩
        · rw [none_forwarded, id]
          exact reg.next
        · rw [list]
          exact reg.counted
        · rw [list]
          exact reg.sorted
        · rw [none_forwarded, list]
          exact reg.nodes
        · intro topicId
          simp only [replyTopic, event, none_sent, State.entry, list]
          rw [map_none, if_neg (by nofun)]
          exact reg.topics topicId
      · have one_forwarded : forwardedIds (t :: history) =
            t.before.topicId :: forwardedIds history := by
          rw [forwardedIds, filterMap_cons_some (by rw [sent]; rfl), forwardedIds]
        rw [one_forwarded, length_cons] at few
        have here : t.before.topicId = (forwardedIds history).length := by
          rw [reg.next, wrap64]
          omega
        refine ⟨?_, ?_, ?_, ?_, ?_, ?_, ?_⟩
        · rw [one_forwarded, pairwise_cons, here]
          exact ⟨fun topicId mem => (reg.given topicId mem).2, reg.increasing⟩
        · rw [next, one_forwarded, here]
          rfl
        · rw [one_forwarded, forall_mem_cons, length_cons, here]
          refine ⟨by omega, ?_⟩
          intro topicId mem
          have given := reg.given topicId mem
          omega
        · simp only [list, length_append, length_singleton, reg.counted]
          rfl
        · rw [list]
          refine pairwise_append.mpr ⟨reg.sorted, pairwise_singleton _ _, ?_⟩
          intro m mem n' new
          rw [mem_singleton.mp new, id, here]
          exact (reg.nodes m mem).1.2
        · rw [list, one_forwarded, length_cons, forall_mem_append, forall_mem_singleton, id, here]
          refine ⟨?_, by omega, valid⟩
          intro m mem
          have given := reg.nodes m mem
          exact ⟨by omega, given.2⟩
        · intro topicId
          simp only [replyTopic, event, sent, State.entry, list, find_concat, map_some,
            some.injEq, id]
          split_ifs with same
          · have absent : (t.before.topicList.head.find? fun m => m.topicId = topicId) = none := by
              rw [find?_eq_none]
              intro m mem
              simp only [decide_eq_true_eq]
              rw [← same]
              exact fresh m mem
            rw [absent, none_or, map_some, topic]
          · rw [or_none]
            exact reg.topics topicId

/-- While the ids do not wrap, replies go to the topics of their requests. -/
theorem mqtt_reply_routing (run : Run (hubMachine mgrId jsonSchemaValidate) anyStep history s)
    (few : (forwardedIds history).length ≤ 2 ^ 63) :
    Routes (hubMachine mgrId jsonSchemaValidate) history s := by
  have reg := registered_of_run run few
  refine ⟨reg.increasing, reg.counted, reg.sorted.nodup, ?_, ?_, ?_⟩
  · intro vissv2Message payload topicId extracted
    have topics := reg.topics topicId
    simp only [State.entry] at topics
    simp only [hubMachine, handleServerCoreMessage, extracted, map_some, routeResponse, ← topics]
    cases found : findTopicLocked topicId s.topicList with
    | none => exact ⟨_, rfl⟩
    | some own =>
      have valid := (reg.nodes own (mem_of_find?_eq_some found)).2
      cases unmarshalMap payload <;> exact ⟨_, by simp only [publishMessage, if_neg valid]; rfl⟩
  · intro vissv2Message s' output taken
    obtain ⟨⟨payload, topicHandle⟩, extracted, same⟩ := map_eq_some_iff.mp taken
    obtain ⟨after, -⟩ := Prod.mk.inj same
    exact (reg.route extracted (by rw [← after]; rfl)).1
  · intro mqttPayload rfcTime s' output taken topicId n here
    obtain ⟨list, -, -⟩ | ⟨n', request, -, -, -, -, -, list⟩ :=
      broker_cases (reg.fresh few) (some.inj taken)
    · rw [State.entry, list]
      exact here
    · rw [State.entry, findTopicLocked] at here
      rw [State.entry, list, find_concat, here, some_or]

def sampleHub : Machine State Event Output := hubMachine 3 fun _ => []

def fromClient (topic action : Str) (fields : Map Value) : Event :=
  .broker (Value.obj [("request", .obj (("action", .str action) :: fields)),
    ("topic", .str topic)]).marshal []

def fromCore (topicId : Int) (action subscriptionId : Str) : Event :=
  .core (Value.obj [("RouterId", .str (routerId 3 topicId)), ("action", .str action),
    ("subscriptionId", .str subscriptionId)]).marshal

def subscribing : List Event :=
  [fromClient "a" "subscribe" [], fromClient "b" "subscribe" [], fromCore 0 "subscribe" "7",
    fromCore 1 "subscribe" "7"]

theorem mqtt_reply_routing_two : ∃ history s, Run sampleHub anyStep history s ∧
    replyTopic history 1 = some "b".toList ∧ Routes sampleHub history s := by
  rcases Run.of_exec sampleHub {} rfl subscribing (fun history _ =>
    replyTopic history 1 = some "b".toList ∧ (forwardedIds history).length ≤ 2) (by decide +kernel)
    with ⟨history, s, run, second, few⟩
  exact ⟨history, s, run, second, mqtt_reply_routing run (few.trans (by decide))⟩

theorem get_forwarded (s : State) : ∃ s' request, sampleHub.step s (fromClient "a" "get" []) =
    some (s', { forwarded := some (s.topicId, request) }) ∧
      s'.topicId = wrap64 (s.topicId + 1) := by
  have payload : decomposeMqttPayload (Value.obj [("request", .obj [("action", .str "get")]),
      ("topic", .str "a")]).marshal = ("a".toList, "\x7b\"action\":\"get\"\x7d".toList) := by
    decide +kernel
  have valid : isValidReplyTopic "a" = true := by decide
  have same (id : Int) : (withRoutingInfo "\x7b\"action\":\"get\"\x7d" 3 id).isSome =
      (withRoutingInfo "\x7b\"action\":\"get\"\x7d" 3 0).isSome := by
    unfold withRoutingInfo
    split
    · split_ifs <;> rfl
    · rfl
  rcases isSome_iff_exists.mp ((same s.topicId).trans (by decide +kernel)) with ⟨request, sent⟩
  simp only [sampleHub, hubMachine, fromClient, handleBrokerMessage, payload, valid, sent]
  exact ⟨_, request, rfl, rfl⟩

theorem run_gets (k : Nat) : ∃ history s, Run sampleHub anyStep history s ∧
    s.topicId = wrap64 k ∧ (forwardedIds history).length = k ∧
    ∀ topicId ∈ forwardedIds history, -2 ^ 63 ≤ topicId := by
  induction k with
  | zero => exact ⟨[], {}, .start _ rfl, rfl, rfl, forall_mem_nil _⟩
  | succ k ih =>
    rcases ih with ⟨history, s, run, next, count, least⟩
    rcases get_forwarded s with ⟨s', request, taken, after⟩
    refine ⟨_, s', Run.step (t := ⟨s, _, s', _⟩) run taken trivial, ?_, ?_, ?_⟩
    · rw [after, next]
      simp only [wrap64]
      omega
    · rw [← count]
      rfl
    · refine forall_mem_cons.mpr ⟨?_, least⟩
      rw [next, wrap64]
      omega

/-- One unsubscribes, and the entry of the other with the id stays. The id after the greatest `int`
is the least. -/
theorem unsubscribe_releases_one : (∃ history s, Run sampleHub anyStep history s ∧
    (s.entry 2).map NodeValue.unsubscribeTarget = some "7".toList ∧
    (s.entry 1).map NodeValue.subscriptionId = some "7".toList ∧
    ∃ s' output, sampleHub.step s (fromCore 2 "unsubscribe" "7") = some (s', output) ∧
      s'.entry 1 = s.entry 1) ∧
    ∃ history s, Run sampleHub anyStep history s ∧ (forwardedIds history).length = 2 ^ 63 + 1 ∧
      ¬ (forwardedIds history).Pairwise (· > ·) := by
  refine ⟨?_, ?_⟩
  · rcases Run.of_exec sampleHub {} rfl
      (subscribing ++ [fromClient "a" "unsubscribe" [("subscriptionId", .str "7")]])
      (fun _ s => (s.entry 2).map NodeValue.unsubscribeTarget = some "7".toList ∧
        (s.entry 1).map NodeValue.subscriptionId = some "7".toList ∧
        ∃ result ∈ sampleHub.step s (fromCore 2 "unsubscribe" "7"),
          State.entry result.1 1 = s.entry 1)
      (by decide +kernel) with ⟨history, s, run, target, recorded, result, taken, stays⟩
    exact ⟨history, s, run, target, recorded, result.1, result.2, taken, stays⟩
  · rcases run_gets (2 ^ 63) with ⟨history, s, run, next, count, least⟩
    rcases get_forwarded s with ⟨s', request, taken, -⟩
    refine ⟨_, s', Run.step (t := ⟨s, _, s', _⟩) run taken trivial, congrArg Nat.succ count, ?_⟩
    intro increasing
    rcases exists_mem_of_length_pos (by rw [count]; decide) with ⟨earlier, mem⟩
    have above : s.topicId > earlier := (pairwise_cons.mp increasing).1 earlier mem
    have wrapped : s.topicId = -2 ^ 63 := next.trans (by decide +kernel)
    have := least earlier mem
    omega

end Runs

end Vissr.Transport.Mqtt
