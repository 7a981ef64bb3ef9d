import Vissr.Transport.SessionSlots

/-! What reaches a session of what an earlier session of its slot has left behind. -/

namespace Vissr.Transport.Clients

open List Option Function Channel State Manager

structure Arrived (s : State) (session : Nat) (address : Address) : Prop where
  awaited : Awaited s
  routed : s.Routed
  seat : s.sessions[session]? = some { address := address }

def Misled (s : State) (session : Nat) : Prop :=
  ∃ s', Leads s s' ∧ ∃ g, g ≠ session ∧ (session, g) ∈ s'.written

structure Keeps (s s' : State) : Prop where
  notifications : s'.notifications = s.notifications
  backend : ∀ mgr, (s'.manager mgr).backendChannel = (s.manager mgr).backendChannel

variable {s s' : State} {n g : Nat} {address : Address} {mgr : Mgr}

theorem Leads.one {event : Event} (taken : s.step event = some s') : Leads s s' :=
  Relation.ReflTransGen.single ⟨event, taken⟩

theorem Misled.after (misled : Misled s' n) (leads : Leads s s') : Misled s n := by
  obtain ⟨t, further, wrong⟩ := misled
  exact ⟨t, leads.trans further, wrong⟩

theorem Keeps.trans {t : State} (first : Keeps s s') (second : Keeps s' t) : Keeps s t where
  notifications := second.notifications.trans first.notifications
  backend := fun mgr => (second.backend mgr).trans (first.backend mgr)

theorem Arrived.step (arrived : Arrived s n address) {event : Event}
    (taken : s.step event = some s')
    (same : s'.sessions[n]? = s.sessions[n]?) : Arrived s' n address where
  awaited := arrived.awaited.step (step_stepped taken).1
  routed := (step_stepped taken).2 arrived.routed
  seat := same.trans arrived.seat

@[simp] theorem manager_setManager (s : State) (mgr : Mgr) (m : Manager) :
    (s.setManager mgr m).manager mgr = m := update_self ..

theorem keeps_of_update {m : Manager} (changed : s'.manager = update s.manager mgr m)
    (queue : s'.notifications = s.notifications)
    (same : m.backendChannel = (s.manager mgr).backendChannel) : Keeps s s' where
  notifications := queue
  backend := by
    intro other
    rw [changed]
    by_cases here : other = mgr
    · rw [here, update_self, same]
    · rw [update_of_ne here]

theorem keeps_setManager {m : Manager} (same : m.backendChannel = (s.manager mgr).backendChannel) :
    Keeps s (s.setManager mgr m) :=
  keeps_of_update rfl rfl same

def Idles (s : State) (n : Nat) (address : Address) (mgr : Mgr) : Prop :=
  ∃ s', Leads s s' ∧ Arrived s' n address ∧ Keeps s s' ∧ (s'.manager mgr).hub = none ∧
    (s'.manager mgr).responseChannel = (s.manager mgr).responseChannel ∧
    ∀ request ∈ (s.manager mgr).hub, request ∈ (s'.manager mgr).requestChannel.items

theorem exists_idle (arrived : Arrived s n address) (mgr : Mgr) : Idles s n address mgr := by
  have sends {s : State} (arrived : Arrived s n address)
      (room : (s.manager mgr).requestChannel.items.length < pipelineBuf) :
      Idles s n address mgr := by
    unfold Idles
    cases held : (s.manager mgr).hub with
    | none => exact ⟨s, .refl, arrived, ⟨rfl, fun _ => rfl⟩, held, rfl, nofun⟩
    | some request =>
      obtain ⟨sent, send, items⟩ := exists_send room request
      have taken : s.step (.forward mgr) = some (s.setManager mgr
          { s.manager mgr with hub := none, requestChannel := sent }) := by
        rw [step, forward, held]
        simp only [send, map_some]
      refine ⟨_, .one taken, arrived.step taken rfl, keeps_setManager rfl, ?_, ?_, ?_⟩
      · rw [manager_setManager]
      · rw [manager_setManager]
      · intro same inside
        cases inside
        rw [manager_setManager, items]
        exact mem_append_right _ (mem_singleton.mpr rfl)
  by_cases room : (s.manager mgr).requestChannel.items.length < pipelineBuf
  · exact sends arrived room
  · -- the queue of requests is full, so that one of them can be passed on or dropped
    cases full : (s.manager mgr).requestChannel.items with
    | nil =>
      rw [full] at room
      exact absurd (by decide) room
    | cons request =>
      obtain ⟨received, receive, left⟩ := exists_receive full
      have bounded := (s.manager mgr).requestChannel.bounded
      have taken : s.step (.relay mgr) = some (s.setManager mgr
          { s.manager mgr with
            requestChannel := received
            transportDataChannel := ((s.manager mgr).transportDataChannel.send request).getD
              (s.manager mgr).transportDataChannel }) := by
        rw [step, relay, receive]
        rfl
      rw [full, length_cons, ← left] at bounded
      obtain ⟨s', leads, stays, keeps, idle, response, forwarded⟩ :=
        sends (arrived.step taken rfl) (by rw [manager_setManager]; exact bounded)
      rw [manager_setManager] at response forwarded
      exact ⟨s', (Leads.one taken).trans leads, stays,
        (keeps_setManager (by rfl)).trans keeps, idle, response, forwarded⟩

theorem Awaited.takes_response (awaited : Awaited s)
    (found : .down (.response address g) ∈ s.items) (webSocket : address.mgr = .ws) :
    ∃ i, s.sessions.findIdx? (fun x => x.takes (.response address g)) = some i := by
  obtain ⟨x, here, home, waits⟩ := awaited.waiting found rfl webSocket
  cases search : s.sessions.findIdx? (fun x => x.takes (.response address g)) with
  | some i => exact ⟨i, rfl⟩
  | none =>
    have missed := findIdx?_eq_none_iff.mp search x (mem_of_getElem? here)
    rw [Session.takes, home, waits] at missed
    simp at missed

theorem exists_pop (arrived : Arrived s n address) {message : Message} {rest : List Message}
    (front : (s.manager mgr).responseChannel.items = message :: rest) :
    ∃ s', Leads s s' ∧ Arrived s' n address ∧ Keeps s s' ∧
      (s'.manager mgr).responseChannel.items = rest := by
  obtain ⟨t, leads, there, keeps, idle, same, -⟩ := exists_idle arrived mgr
  rw [← same] at front
  obtain ⟨received, receive, left⟩ := exists_receive front
  have drops : t.step (.deliver mgr false) = some (t.setManager mgr
        { t.manager mgr with responseChannel := received }) →
      ∃ s', Leads s s' ∧ Arrived s' n address ∧ Keeps s s' ∧
        (s'.manager mgr).responseChannel.items = rest := by
    intro taken
    refine ⟨_, leads.trans (Leads.one taken), there.step taken rfl,
      keeps.trans (keeps_setManager rfl), ?_⟩
    rw [manager_setManager, left]
  cases message with
  | event =>
    apply drops
    simp only [step, deliver, idle, receive, Bool.false_eq_true, if_false]
  | response where' g =>
    by_cases socket : mgr = .uds
    · apply drops
      simp only [step, deliver, idle, receive, Bool.false_eq_true, if_false]
      exact if_pos socket
    · have own : where'.mgr = mgr := by
        apply there.routed mgr (.down (.response where' g))
        simp [Manager.items, front]
      have webSocket : where'.mgr = .ws := by
        rw [own]
        cases mgr with
        | ws => rfl
        | uds => exact absurd rfl socket
      obtain ⟨i, found⟩ := there.awaited.takes_response (mem_items_of_receive receive) webSocket
      have taken : t.step (.deliver mgr true) = some { t with
          sessions := t.sessions.modify i fun x => x.receive (.response where' g)
          manager := update t.manager mgr
            { t.manager mgr with responseChannel := received } } := by
        simp only [step, deliver, idle, receive, if_true, found, map_some]
      -- the session that takes it waits, and the new one does not
      have other : i ≠ n := by
        intro same
        obtain ⟨x, here, takes⟩ := exists_taker found
        rw [same, there.seat] at here
        cases here
        cases (of_decide_eq_true takes).2
      refine ⟨_, leads.trans (Leads.one taken), there.step taken ?_,
        keeps.trans (keeps_of_update rfl rfl rfl), ?_⟩
      · exact getElem?_modify_ne _ _ other
      · simp only [update_self, left]

theorem exists_drained (arrived : Arrived s n address) (mgr : Mgr) :
    ∃ s', Leads s s' ∧ Arrived s' n address ∧ Keeps s s' ∧
      (s'.manager mgr).responseChannel.items = [] := by
  generalize waiting : (s.manager mgr).responseChannel.items = messages
  induction messages generalizing s with
  | nil => exact ⟨s, .refl, arrived, ⟨rfl, fun _ => rfl⟩, waiting⟩
  | cons message rest ih =>
    obtain ⟨t, leads, there, keeps, left⟩ := exists_pop arrived waiting
    obtain ⟨s', further, stays, kept, drained⟩ := ih there left
    exact ⟨s', leads.trans further, stays, keeps.trans kept, drained⟩

theorem misled_of_writing {x : Session} (here : s.sessions[n]? = some x)
    (writing : x.writer = .writing (some g)) (other : g ≠ n) : Misled s n := by
  have taken : s.step (.act n (.write true)) = some { s with
      sessions := s.sessions.set n
        { x with writer := if true ∨ x.address.mgr = .ws then .receiving else .returned }
      written := s.written ++ [(n, g)] } := by
    simp only [step, act, here, Session.act, Session.writes, writing,
      map_some, map_cons, map_nil]
  refine ⟨_, Leads.one taken, g, other, ?_⟩
  exact mem_append_right _ (mem_singleton.mpr rfl)

theorem misled_of_front (arrived : Arrived s n address) (other : g ≠ n) {rest : List Message}
    (idle : (s.manager mgr).hub = none)
    (front : (s.manager mgr).responseChannel.items = .event address g :: rest) : Misled s n := by
  obtain ⟨received, receive, -⟩ := exists_receive front
  have takes : ({ address := address } : Session).takes (.event address g) = true := by
    simp [Session.takes]
  have found : s.sessions.findIdx? (fun x => x.takes (.event address g)) = some n := by
    cases search : s.sessions.findIdx? (fun x => x.takes (.event address g)) with
    | none =>
      have missed := findIdx?_eq_none_iff.mp search _ (mem_of_getElem? arrived.seat)
      rw [takes] at missed
      cases missed
    | some i =>
      obtain ⟨x, here, ready⟩ := exists_taker search
      obtain ⟨seat, receiving⟩ := of_decide_eq_true ready
      have same : i = n := arrived.awaited.seated.one i n x _ here arrived.seat
          (arrived.awaited.seated.held_of_writer here (by simp [receiving])) rfl seat
      rw [same]
  have handed : s.step (.deliver mgr true) = some { s with
      sessions := s.sessions.modify n fun x => x.receive (.event address g)
      manager := update s.manager mgr
        { s.manager mgr with responseChannel := received } } := by
    simp only [step, deliver, idle, receive, if_true, found, map_some]
  apply (misled_of_writing (x := ({ address := address } : Session).receive (.event address g))
    _ rfl other).after (Leads.one handed)
  rw [getElem?_modify_eq, arrived.seat]
  rfl

/-- What misleads from the front of a queue does so from anywhere in it. -/
theorem misled_of_queue {α : Type*} (queue : State → List α) {a : α}
    (pop : ∀ {s x rest}, Arrived s n address → queue s = x :: rest → (x = a → Misled s n) ∧
      ∃ s', Leads s s' ∧ Arrived s' n address ∧ queue s' = rest)
    (arrived : Arrived s n address) (waiting : a ∈ queue s) : Misled s n := by
  obtain ⟨before, after, split⟩ := append_of_mem waiting
  clear waiting
  induction before generalizing s with
  | nil => exact (pop arrived split).1 rfl
  | cons x before ih =>
    obtain ⟨s', leads, there, left⟩ := (pop arrived split).2
    exact (ih there left).after leads

section

variable (arrived : Arrived s n address)

include arrived

theorem misled_of_response (other : g ≠ n)
    (waiting : .event address g ∈ (s.manager mgr).responseChannel.items) : Misled s n := by
  refine misled_of_queue (fun s => (s.manager mgr).responseChannel.items) ?_ arrived waiting
  intro s x rest arrived front
  obtain ⟨s', leads, there, -, left⟩ := exists_pop arrived front
  refine ⟨?_, s', leads, there, left⟩
  rintro rfl
  obtain ⟨t, leads, there, -, idle, same, -⟩ := exists_idle arrived mgr
  rw [← same] at front
  exact (misled_of_front there other idle front).after leads

theorem exists_relayBack {message : Message}
    {rest : List Message} (front : (s.manager mgr).backendChannel.items = message :: rest) :
    ∃ s', Leads s s' ∧ Arrived s' n address ∧ s'.notifications = s.notifications ∧
      (s'.manager mgr).backendChannel.items = rest ∧
      message ∈ (s'.manager mgr).responseChannel.items := by
  obtain ⟨t, leads, there, keeps, empty⟩ := exists_drained arrived mgr
  rw [← keeps.backend mgr] at front
  obtain ⟨received, receive, left⟩ := exists_receive front
  have room : (t.manager mgr).responseChannel.items.length < pipelineBuf := by
    rw [empty]
    decide
  obtain ⟨sent, send, items⟩ := exists_send room message
  have taken : t.step (.relayBack mgr) = some (t.setManager mgr
      { t.manager mgr with backendChannel := received, responseChannel := sent }) := by
    simp only [step, relayBack, receive, map_some, send, getD_some]
  refine ⟨_, leads.trans (Leads.one taken), there.step taken rfl, keeps.notifications, ?_, ?_⟩
  · rw [manager_setManager, left]
  · rw [manager_setManager, items]
    exact mem_append_right _ (mem_singleton.mpr rfl)

theorem misled_of_backend (other : g ≠ n)
    (waiting : .event address g ∈ (s.manager mgr).backendChannel.items) : Misled s n := by
  refine misled_of_queue (fun s => (s.manager mgr).backendChannel.items) ?_ arrived waiting
  intro s x rest arrived front
  obtain ⟨s', leads, there, -, left, passed⟩ := exists_relayBack arrived front
  refine ⟨?_, s', leads, there, left⟩
  rintro rfl
  exact (misled_of_response there other passed).after leads

theorem exists_flushed (mgr : Mgr) :
    ∃ s', Leads s s' ∧ Arrived s' n address ∧ s'.notifications = s.notifications ∧
      (s'.manager mgr).backendChannel.items = [] := by
  generalize waiting : (s.manager mgr).backendChannel.items = messages
  induction messages generalizing s with
  | nil => exact ⟨s, .refl, arrived, rfl, waiting⟩
  | cons message rest ih =>
    obtain ⟨t, leads, there, queue, left, -⟩ := exists_relayBack arrived waiting
    obtain ⟨s', further, stays, same, flushed⟩ := ih there left
    exact ⟨s', leads.trans further, stays, same.trans queue, flushed⟩

theorem exists_dispatch {message : Message}
    {rest : List Message} (front : s.notifications = message :: rest) :
    ∃ s', Leads s s' ∧ Arrived s' n address ∧ s'.notifications = rest ∧
      message ∈ (s'.manager message.address.mgr).backendChannel.items := by
  obtain ⟨t, leads, there, same, empty⟩ := exists_flushed arrived message.address.mgr
  rw [← same] at front
  have room : (t.manager message.address.mgr).backendChannel.items.length < pipelineBuf := by
    rw [empty]
    decide
  obtain ⟨sent, send, items⟩ := exists_send room message
  have taken : t.step .dispatch = some { t with
      manager := update t.manager message.address.mgr
        { t.manager message.address.mgr with backendChannel := sent }
      notifications := rest } := by
    simp only [step, dispatch, front, send, map_some]
  refine ⟨_, leads.trans (Leads.one taken), there.step taken rfl, rfl, ?_⟩
  simp only [update_self, items]
  exact mem_append_right _ (mem_singleton.mpr rfl)

theorem misled_of_notification (other : g ≠ n)
    (waiting : .event address g ∈ s.notifications) : Misled s n := by
  refine misled_of_queue notifications ?_ arrived waiting
  intro s x rest arrived front
  obtain ⟨s', leads, there, left, passed⟩ := exists_dispatch arrived front
  refine ⟨?_, s', leads, there, left⟩
  rintro rfl
  exact (misled_of_backend there other passed).after leads

theorem misled_of_subscription (other : g ≠ n)
    (made : (address, g) ∈ s.subscriptions) : Misled s n := by
  obtain ⟨k, here⟩ := getElem?_of_mem made
  have taken : s.step (.notify k) = some
      { s with notifications := s.notifications ++ [.event address g] } := by
    simp only [step, notify, here, map_some]
  apply (misled_of_notification (arrived.step taken rfl) other _).after (Leads.one taken)
  exact mem_append_right _ (mem_singleton.mpr rfl)

variable {request : Forwarded} {rest : List Forwarded}

theorem exists_handle (front : s.service = request :: rest) :
    ∃ s', Leads s s' ∧ Arrived s' n address ∧ s'.service = rest ∧ (request.request = .subscribe →
        (request.address, request.session) ∈ s'.subscriptions) := by
  have handled {s' : State} (taken : s.step (.handle true) = some s')
      (same : s'.sessions = s.sessions) (queue : s'.service = rest)
      (made : request.request = .subscribe →
        (request.address, request.session) ∈ s'.subscriptions) :
      ∃ s', Leads s s' ∧ Arrived s' n address ∧ s'.service = rest ∧ (request.request = .subscribe →
          (request.address, request.session) ∈ s'.subscriptions) :=
    ⟨s', Leads.one taken, arrived.step taken (by rw [same]), queue, made⟩
  cases kind : request.request with
  | subscribe =>
    rw [kind] at handled
    apply handled
    · simp only [step, handle, front, kind]
      rfl
    · rfl
    · rfl
    · intro _
      exact mem_append_right _ (mem_singleton.mpr rfl)
  | kill | other =>
    rw [kind] at handled
    apply handled
    · simp only [step, handle, front, kind]
      rfl
    · rfl
    · rfl
    · nofun

theorem misled_of_service (other : g ≠ n)
    (waiting : ⟨address, g, .subscribe⟩ ∈ s.service) : Misled s n := by
  refine misled_of_queue service ?_ arrived waiting
  intro s x rest arrived front
  obtain ⟨s', leads, there, left, made⟩ := exists_handle arrived front
  refine ⟨?_, s', leads, there, left⟩
  rintro rfl
  exact (misled_of_subscription there other (made rfl)).after leads

theorem exists_serve (front : (s.manager mgr).transportDataChannel.items = request :: rest) :
    ∃ s', Leads s s' ∧ Arrived s' n address ∧ request ∈ s'.service ∧
      (s'.manager mgr).transportDataChannel.items = rest ∧
      (s'.manager mgr).requestChannel = (s.manager mgr).requestChannel := by
  obtain ⟨received, receive, left⟩ := exists_receive front
  have taken : s.step (.serve mgr true) = some { s with
      manager := update s.manager mgr
        { s.manager mgr with transportDataChannel := received }
      service := s.service ++ [request] } := by
    simp only [step, serve, receive, true_or, if_true]
  refine ⟨_, Leads.one taken, arrived.step taken rfl, ?_, ?_, ?_⟩
  · exact mem_append_right _ (mem_singleton.mpr rfl)
  · simp only [update_self, left]
  · simp only [update_self]

theorem misled_of_transportData (other : g ≠ n)
    (waiting : ⟨address, g, .subscribe⟩ ∈ (s.manager mgr).transportDataChannel.items) :
    Misled s n := by
  refine misled_of_queue (fun s => (s.manager mgr).transportDataChannel.items) ?_ arrived waiting
  intro s x rest arrived front
  obtain ⟨s', leads, there, passed, left, -⟩ := exists_serve arrived front
  refine ⟨?_, s', leads, there, left⟩
  rintro rfl
  exact (misled_of_service there other passed).after leads

theorem exists_served (mgr : Mgr) : ∃ s', Leads s s' ∧ Arrived s' n address ∧
      (s'.manager mgr).transportDataChannel.items = [] ∧
      (s'.manager mgr).requestChannel = (s.manager mgr).requestChannel := by
  generalize waiting : (s.manager mgr).transportDataChannel.items = requests
  induction requests generalizing s with
  | nil => exact ⟨s, .refl, arrived, waiting, rfl⟩
  | cons request rest ih =>
    obtain ⟨t, leads, there, -, left, same⟩ := exists_serve arrived waiting
    obtain ⟨s', further, stays, served, kept⟩ := ih there left
    exact ⟨s', leads.trans further, stays, served, kept.trans same⟩

theorem exists_relay (front : (s.manager mgr).requestChannel.items = request :: rest) :
    ∃ s', Leads s s' ∧ Arrived s' n address ∧
      request ∈ (s'.manager mgr).transportDataChannel.items ∧
      (s'.manager mgr).requestChannel.items = rest := by
  obtain ⟨t, leads, there, empty, same⟩ := exists_served arrived mgr
  rw [← same] at front
  obtain ⟨received, receive, left⟩ := exists_receive front
  have room : (t.manager mgr).transportDataChannel.items.length < pipelineBuf := by
    rw [empty]
    decide
  obtain ⟨sent, send, items⟩ := exists_send room request
  have taken : t.step (.relay mgr) = some (t.setManager mgr
      { t.manager mgr with requestChannel := received, transportDataChannel := sent }) := by
    simp only [step, relay, receive, map_some, send, getD_some]
  refine ⟨_, leads.trans (Leads.one taken), there.step taken rfl, ?_, ?_⟩
  · rw [manager_setManager, items]
    exact mem_append_right _ (mem_singleton.mpr rfl)
  · rw [manager_setManager, left]

theorem misled_of_request (other : g ≠ n)
    (waiting : ⟨address, g, .subscribe⟩ ∈ (s.manager mgr).requestChannel.items) : Misled s n := by
  refine misled_of_queue (fun s => (s.manager mgr).requestChannel.items) ?_ arrived waiting
  intro s x rest arrived front
  obtain ⟨s', leads, there, passed, left⟩ := exists_relay arrived front
  refine ⟨?_, s', leads, there, left⟩
  rintro rfl
  exact (misled_of_transportData there other passed).after leads

end

theorem misled_of_hub (arrived : Arrived s n address) (other : g ≠ n)
    (waiting : ⟨address, g, .subscribe⟩ ∈ (s.manager mgr).hub) : Misled s n := by
  obtain ⟨s', leads, there, -, -, -, forwarded⟩ := exists_idle arrived mgr
  exact (misled_of_request there other (forwarded _ waiting)).after leads

theorem eq_of_subscriber {item : Item} (owned : item.subscriber = some (address, g)) :
    item = .up ⟨address, g, .subscribe⟩ ∨ item = .down (.event address g) := by
  rw [Item.subscriber.eq_def] at owned
  split at owned
  · cases owned
    exact .inl rfl
  · cases owned
    exact .inr rfl
  · cases owned

theorem misled_of_manager (arrived : Arrived s n address) (other : g ≠ n) {item : Item}
    (inside : item ∈ (s.manager mgr).items) (owned : item.subscriber = some (address, g)) :
    Misled s n := by
  obtain rfl | rfl := eq_of_subscriber owned
  · simp only [Manager.items, mem_append, List.mem_map, Item.up.injEq, exists_eq_right,
      reduceCtorEq, and_false, exists_false, or_false, mem_toList] at inside
    obtain (hub | requested) | late := inside
    · exact misled_of_hub arrived other hub
    · exact misled_of_request arrived other requested
    · exact misled_of_transportData arrived other late
  · simp only [Manager.items, mem_append, List.mem_map, Item.down.injEq, exists_eq_right,
      reduceCtorEq, and_false, exists_false, false_or] at inside
    obtain backend | response := inside
    · exact misled_of_backend arrived other backend
    · exact misled_of_response arrived other response

theorem misled_of_outstanding (arrived : Arrived s n address) (other : g ≠ n)
    (left : (address, g) ∈ s.outstanding) : Misled s n := by
  obtain made | inside := mem_append.mp left
  · exact misled_of_subscription arrived other made
  · obtain ⟨item, found, owned⟩ := mem_filterMap.mp inside
    simp only [State.items, mem_append] at found
    obtain ((up | down) | ws) | uds := found
    · obtain ⟨request, waiting, rfl⟩ := mem_map.mp up
      rcases eq_of_subscriber owned with same | same <;> cases same
      exact misled_of_service arrived other waiting
    · obtain ⟨message, waiting, rfl⟩ := mem_map.mp down
      rcases eq_of_subscriber owned with same | same <;> cases same
      exact misled_of_notification arrived other waiting
    · exact misled_of_manager arrived other ws owned
    · exact misled_of_manager arrived other uds owned

theorem connect_eq {clientId : Fin numOfClients}
    (slot : (s.manager mgr).clientIndexList.first id = some clientId) : s.connect mgr = { s with
      sessions := s.sessions ++ [{ address := ⟨mgr, clientId⟩ }]
      manager := update s.manager mgr
        { s.manager mgr with
          clientIndexList := (s.manager mgr).clientIndexList.set clientId false } } := by
  rw [connect, slot]

theorem outstanding_connect (s : State) (mgr : Mgr) :
    (s.connect mgr).outstanding = s.outstanding := by
  rw [connect.eq_def]
  split
  · rfl
  · cases mgr <;> rfl

def subscribing : List Event :=
  [.connect .ws, .act 0 (.read .subscribe), .take 0 true, .forward .ws, .relay .ws,
    .serve .ws true, .handle true, .dispatch, .relayBack .ws, .deliver .ws true, .act 0 .answer,
    .act 0 (.write true)]

def ending : List Event := [.act 0 .fail, .take 0 true, .forward .ws, .act 0 .terminate, .leave 0]

end Vissr.Transport.Clients
