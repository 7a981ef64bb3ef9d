import Vissr.Transport.ClientSessions

/-! What holds of the slots of the clients and of the requests and events that are on their way. -/

namespace Vissr.Transport.Clients

open List Option Nat Function Bool Item Session

variable {s s' : State} {x y : Session} {i : Nat} {gone fresh : List Item} {events : List Nat}

theorem Session.address_act {a : Act} (acts : x.act a = some y) : y.address = x.address := by
  rw [act.eq_def] at acts
  grind

variable {valid : Bool}

theorem Session.address_ask {request : Option Request}
    (asks : x.ask valid = some (y, request)) : y.address = x.address := by
  rw [ask.eq_def] at asks
  grind

section

variable (next : x.Next s i y gone fresh events)

include next

theorem Session.Next.address : y.address = x.address := by
  cases next with
  | same => rfl
  | acted a acts => exact address_act acts
  | asked valid request asks => exact address_ask asks
  | left => rfl
  | received message => cases message <;> rfl

theorem Session.Next.held :
    y.held = x.held ∨ y.held = false ∧ y.reader = .returned ∧ y.writer = .returned := by
  cases next with
  | same => exact .inl rfl
  | acted a acts =>
    left
    rw [act.eq_def] at acts
    grind
  | asked valid request asks =>
    left
    rw [ask.eq_def] at asks
    grind
  | left reader writer => exact .inr ⟨rfl, reader, writer⟩
  | received message =>
    left
    cases message <;> rfl

theorem Session.Next.returned : (x.reader = .returned → y.reader = .returned) ∧
      (x.writer = .returned → y.writer = .returned) := by
  cases next with
  | same | left => exact ⟨id, id⟩
  | acted a acts =>
    rw [act.eq_def] at acts
    grind
  | asked valid request asks =>
    rw [ask.eq_def] at asks
    grind
  | received message found takes => cases message <;> grind [takes, receive]

theorem Session.Next.writing {g : Nat} (writes : y.writer = .writing (some g)) :
    x.writer = .writing (some g) ∨ .down (.event x.address g) ∈ s.items := by
  cases next with
  | same | left => exact .inl writes
  | acted a acts =>
    left
    rw [act.eq_def] at acts
    grind
  | asked valid request asks =>
    left
    rw [ask.eq_def] at asks
    grind
  | received message found takes =>
    cases message with
    | response => exact .inl writes
    | event address =>
      have here : x.address = address := (of_decide_eq_true takes).1
      cases writes
      rw [here]
      exact .inr found

theorem Session.Next.writes {g : Nat} (mem : g ∈ events) : x.writer = .writing (some g) := by
  cases next with
  | same | asked | left | received => cases mem
  | acted =>
    rw [writes.eq_def] at mem
    grind

end

theorem Effect.session (effect : Effect s s') (here : s'.sessions[i]? = some y) :
    (∃ x gone fresh events, s.sessions[i]? = some x ∧ x.Next s i y gone fresh events) ∨
      i = s.sessions.length ∧ s.free y.address = true ∧ y = { address := y.address } := by
  cases effect with
  | moved gone fresh unseen =>
    rw [unseen.sessions] at here
    exact .inl ⟨y, _, _, _, here, .same⟩
  | connected address wasFree free sessions written same =>
    rw [sessions] at here
    obtain here | ⟨last, rfl⟩ := getElem?_concat_cases here
    · exact .inl ⟨y, _, _, _, here, .same⟩
    · exact .inr ⟨last, wasFree, rfl⟩
  | changed j x z gone fresh events before next free sessions written same =>
    left
    rw [sessions] at here
    obtain ⟨rfl, rfl⟩ | ⟨-, here⟩ := getElem?_set_cases here
    · exact ⟨x, _, _, _, before, next⟩
    · exact ⟨y, _, _, _, here, .same⟩

theorem Effect.length_le (effect : Effect s s') : s.sessions.length ≤ s'.sessions.length := by
  cases effect with
  | moved gone fresh unseen => exact Nat.le_of_eq (by rw [unseen.sessions])
  | connected address wasFree free sessions =>
    rw [sessions, length_append]
    exact le_add_right _ _
  | changed i x y gone fresh events before next free sessions =>
    exact Nat.le_of_eq (by rw [sessions, length_set])

theorem Effect.next (effect : Effect s s') (here : s.sessions[i]? = some x) :
    ∃ y gone fresh events, s'.sessions[i]? = some y ∧ x.Next s i y gone fresh events := by
  have inside : i < s.sessions.length := (List.getElem?_eq_some_iff.mp here).1
  have after : i < s'.sessions.length := Nat.lt_of_lt_of_le inside effect.length_le
  obtain ⟨z, gone, fresh, events, before, next⟩ | ⟨new, -, -⟩ :=
    effect.session (getElem?_eq_getElem after)
  · rw [here] at before
    cases before
    exact ⟨_, gone, fresh, events, getElem?_eq_getElem after, next⟩
  · omega

structure Seated (s : State) : Prop where
  ended (i : Nat) (x : Session) : s.sessions[i]? = some x → x.held = false →
    x.reader = .returned ∧ x.writer = .returned
  taken (i : Nat) (x : Session) : s.sessions[i]? = some x → x.held = true → s.free x.address = false
  one (i j : Nat) (x y : Session) : s.sessions[i]? = some x → s.sessions[j]? = some y →
    x.held = true → y.held = true → x.address = y.address → i = j
  listed : ∀ p ∈ s.written, p.1 < s.sessions.length

theorem Session.Next.held_before (next : x.Next s i y gone fresh events) (held : y.held = true) :
    x.held = true := by
  obtain same | ⟨ended, -, -⟩ := next.held
  · rw [same] at held
    exact held
  · rw [ended] at held
    cases held

theorem Seated.over_step (seated : Seated s) (effect : Effect s s') (i : Nat) (y : Session)
    (here : s'.sessions[i]? = some y) (ended : y.held = false) :
    y.reader = .returned ∧ y.writer = .returned := by
  obtain ⟨x, _, _, _, before, next⟩ | ⟨-, -, new⟩ := effect.session here
  · obtain same | ⟨-, both⟩ := next.held
    · rw [same] at ended
      have returned := seated.ended i x before ended
      exact ⟨next.returned.1 returned.1, next.returned.2 returned.2⟩
    · exact both
  · rw [new] at ended
    cases ended

theorem Seated.one_step (seated : Seated s) (effect : Effect s s') (i j : Nat) (y z : Session)
    (first : s'.sessions[i]? = some y) (second : s'.sessions[j]? = some z) (held : y.held = true)
    (held' : z.held = true) (same : y.address = z.address) : i = j := by
  obtain ⟨x, _, _, _, before, next⟩ | ⟨newest, wasFree, -⟩ := effect.session first
  · have holds := seated.taken i x before (next.held_before held)
    obtain ⟨w, _, _, _, before', next'⟩ | ⟨-, wasFree', -⟩ := effect.session second
    · apply seated.one i j x w before before' (next.held_before held) (next'.held_before held')
      rw [← next.address, ← next'.address, same]
    · rw [← next.address, same, wasFree'] at holds
      cases holds
  · obtain ⟨w, _, _, _, before', next'⟩ | ⟨newest', -, -⟩ := effect.session second
    · have holds := seated.taken j w before' (next'.held_before held')
      rw [← next'.address, ← same, wasFree] at holds
      cases holds
    · rw [newest, newest']

theorem Seated.taken_step (seated : Seated s) (effect : Effect s s') (i : Nat) (y : Session)
    (here : s'.sessions[i]? = some y) (held : y.held = true) : s'.free y.address = false := by
  have source := effect.session here
  cases effect with
  | moved gone fresh unseen =>
    rw [unseen.sessions] at here
    rw [unseen.free]
    exact seated.taken i y here held
  | connected address wasFree free sessions =>
    rw [free]
    by_cases there : y.address = address
    · rw [there, update_self]
    · rw [update_of_ne there]
      rw [sessions] at here
      obtain here | ⟨-, rfl⟩ := getElem?_concat_cases here
      · exact seated.taken i y here held
      · exact absurd rfl there
  | changed j x z gone fresh events before next free sessions =>
    obtain ⟨w, _, _, _, before', next'⟩ | ⟨new, -, -⟩ := source
    · have holds := seated.taken i w before' (next'.held_before held)
      rw [← next'.address] at holds
      obtain kept | ⟨freed, left, ended⟩ := free
      · rw [kept]
        exact holds
      · rw [freed]
        by_cases there : y.address = x.address
        · -- the session that leaves is the one that has the slot
          rw [next'.address] at there
          have equal := seated.one i j w x before' before (next'.held_before held) left there
          subst equal
          rw [sessions] at here
          obtain ⟨-, rfl⟩ | ⟨other, -⟩ := getElem?_set_cases here
          · rw [ended] at held
            cases held
          · exact absurd rfl other
        · rw [update_of_ne there]
          exact holds
    · have inside := (List.getElem?_eq_some_iff.mp here).1
      rw [sessions, length_set] at inside
      omega

theorem Effect.written (effect : Effect s s') {p : Nat × Nat} (mem : p ∈ s'.written) :
    p ∈ s.written ∨ ∃ x, s.sessions[p.1]? = some x ∧ x.writer = .writing (some p.2) := by
  cases effect with
  | moved gone fresh unseen =>
    rw [unseen.written] at mem
    exact .inl mem
  | connected address wasFree free sessions written =>
    rw [written] at mem
    exact .inl mem
  | changed i x y gone fresh events before next free sessions written =>
    rw [written] at mem
    obtain old | new := mem_append.mp mem
    · exact .inl old
    · obtain ⟨session, wrote, rfl⟩ := mem_map.mp new
      exact .inr ⟨x, before, next.writes wrote⟩

theorem Seated.step (seated : Seated s) (effect : Effect s s') : Seated s' where
  ended := seated.over_step effect
  taken := seated.taken_step effect
  one := seated.one_step effect
  listed := by
    intro p mem
    apply Nat.lt_of_lt_of_le _ effect.length_le
    obtain old | ⟨x, here, -⟩ := effect.written mem
    · exact seated.listed p old
    · exact (List.getElem?_eq_some_iff.mp here).1

theorem seated_start : Seated {} where
  ended := by
    intro i x here
    cases here
  taken := by
    intro i x here
    cases here
  one := by
    intro i j x y here
    cases here
  listed := by
    intro p mem
    cases mem

def Item.subscriber : Item → Option (Address × Nat)
  | .up ⟨address, session, .subscribe⟩ => some (address, session)
  | .down (.event address session) => some (address, session)
  | _ => none

/-- The slots and sessions of all that there is or will be an event of. -/
def State.outstanding (s : State) : List (Address × Nat) :=
  s.subscriptions ++ s.items.filterMap subscriber

/-- Nothing is there for the slot, and nothing is asked for. -/
def State.Clear (s : State) (address : Address) : Prop := ∀ x ∈ s.outstanding, x.1 ≠ address
  deriving Decidable

def Leads : State → State → Prop :=
  Relation.ReflTransGen fun s s' => ∃ event, s.step event = some s'

/-- Whatever happens, the session is sent its own events only. -/
def OnlyOwn (s : State) (session : Nat) : Prop :=
  ∀ s', Leads s s' → ∀ g, (session, g) ∈ s'.written → g = session

theorem Session.reader_of_ask {request : Request}
    (asks : x.ask valid = some (y, some request)) (answerable : request ≠ .kill) :
    x.reader = .asking request := by
  rw [ask.eq_def] at asks
  grind

inductive Comes (s : State) : Item → Prop
  | asked {i : Nat} {x y : Session} {valid : Bool} {request : Request}
      (here : s.sessions[i]? = some x) (asks : x.ask valid = some (y, some request)) :
      Comes s (.up ⟨x.address, i, request⟩)
  | answered {request : Forwarded} (found : .up request ∈ s.items)
      (waits : request.request ≠ .kill) :
      Comes s (.down (.response request.address request.session))
  | notified {made : Address × Nat} (found : made ∈ s.subscriptions) :
      Comes s (.down (.event made.1 made.2))

theorem Effect.comes (effect : Effect s s') {item : Item} (mem : item ∈ s'.items) :
    item ∈ s.items ∨ Comes s item := by
  cases effect with
  | moved gone fresh unseen turn moves =>
    obtain old | new := moves.mem mem
    · exact .inl old
    · right
      cases turn with
      | passed => cases new
      | answered request found waits =>
        rw [mem_singleton.mp new]
        exact .answered found waits
      | notified made found =>
        rw [mem_singleton.mp new]
        exact .notified found
  | connected address wasFree free sessions written same moves =>
    exact .inl ((moves.mem mem).resolve_right nofun)
  | changed i x y gone fresh events here next free sessions written same moves =>
    obtain old | new := moves.mem mem
    · exact .inl old
    · right
      cases next with
      | asked valid request asks =>
        obtain ⟨wanted, chosen, rfl⟩ := mem_map.mp new
        rw [mem_toList] at chosen
        cases chosen
        exact .asked here asks
      | _ => cases new

theorem Effect.subscribed (effect : Effect s s') {x : Address × Nat}
    (mem : x ∈ s'.subscriptions) :
    x ∈ s.subscriptions ∨ .up ⟨x.1, x.2, .subscribe⟩ ∈ s.items := by
  cases effect with
  | moved gone fresh unseen turn =>
    cases turn with
    | passed ended => exact .inl (ended mem)
    | answered request found waits made =>
      obtain old | ⟨subscribes, rfl⟩ := made x mem
      · exact .inl old
      · rw [← subscribes]
        exact .inr found
    | notified made found same =>
      rw [same] at mem
      exact .inl mem
  | connected address wasFree free sessions written same
  | changed i x y gone fresh events here next free sessions written same =>
    rw [same] at mem
    exact .inl mem

theorem Effect.outstanding (effect : Effect s s') {x : Address × Nat}
    (mem : x ∈ s'.outstanding) :
    x ∈ s.outstanding ∨ ∃ y, s.sessions[x.2]? = some y ∧ y.reader = .asking .subscribe ∧
      x.1 = y.address := by
  have onTheWay {item : Item} (found : item ∈ s.items) (owned : item.subscriber = some x) :
      x ∈ s.outstanding := mem_append_right _ (mem_filterMap.mpr ⟨item, found, owned⟩)
  obtain subscribed | inside := mem_append.mp mem
  · obtain old | asked := effect.subscribed subscribed
    · exact .inl (mem_append_left _ old)
    · exact .inl (onTheWay asked rfl)
  · obtain ⟨item, found, owned⟩ := mem_filterMap.mp inside
    obtain old | new := effect.comes found
    · exact .inl (onTheWay old owned)
    · cases new with
      | @asked i y z valid request here asks =>
        cases request with
        | subscribe =>
          cases owned
          exact .inr ⟨y, here, reader_of_ask asks nofun, rfl⟩
        | kill | other => cases owned
      | answered => cases owned
      | notified made =>
        cases owned
        exact .inl (mem_append_left _ made)

theorem Seated.held_of_reader (seated : Seated s) (here : s.sessions[i]? = some x)
    (running : x.reader ≠ .returned) : x.held = true := by
  by_contra ended
  exact running (seated.ended i x here (eq_false_iff.mpr ended)).1

theorem Seated.held_of_writer (seated : Seated s) (here : s.sessions[i]? = some x)
    (running : x.writer ≠ .returned) : x.held = true := by
  by_contra ended
  exact running (seated.ended i x here (eq_false_iff.mpr ended)).2

/-- While the writer runs, all there is for the slot is its own. -/
structure Owns (s : State) (session : Nat) (address : Address) : Prop where
  seated : Seated s
  present : ∃ x, s.sessions[session]? = some x ∧ x.address = address ∧
    (∀ g, x.writer = .writing (some g) → g = session) ∧
    (x.writer ≠ .returned → ∀ made ∈ s.outstanding, made.1 = address → made.2 = session)
  wrote : ∀ g, (session, g) ∈ s.written → g = session

theorem Owns.step {session : Nat} {address : Address} (owns : Owns s session address)
    (effect : Effect s s') : Owns s' session address := by
  obtain ⟨x, here, seat, writing, own⟩ := owns.present
  obtain ⟨y, _, _, _, there, next⟩ := effect.next here
  have alive (running : y.writer ≠ .returned) : x.writer ≠ .returned :=
    fun returned => running (next.returned.2 returned)
  refine ⟨owns.seated.step effect, ⟨y, there, next.address.trans seat, ?_, ?_⟩, ?_⟩
  · intro g writes
    obtain old | event := next.writing writes
    · exact writing g old
    · apply own (alive (by rw [writes]; nofun)) (address, g) _ rfl
      apply mem_append_right
      rw [seat] at event
      exact mem_filterMap.mpr ⟨_, event, rfl⟩
  · intro running made mem slot
    obtain old | ⟨z, asker, asking, same⟩ := effect.outstanding mem
    · exact own (alive running) made old slot
    · -- the session that asks has the slot, and so it is the one
      apply owns.seated.one made.2 session z x asker here
        (owns.seated.held_of_reader asker (by rw [asking]; nofun))
        (owns.seated.held_of_writer here (alive running))
      rw [← same, slot, seat]
  · intro g mem
    obtain old | ⟨z, writer, writes⟩ := effect.written mem
    · exact owns.wrote g old
    · rw [here] at writer
      cases writer
      exact writing g writes

theorem Owns.leads {session : Nat} {address : Address} (owns : Owns s session address)
    (leads : Leads s s') : Owns s' session address := by
  induction leads with
  | refl => exact owns
  | tail leads taken ih =>
    obtain ⟨event, taken⟩ := taken
    exact ih.step (step_stepped taken).1

def Item.asker : Item → Option (Address × Nat)
  | .up ⟨address, session, request⟩ => if request = .kill then none else some (address, session)
  | .down (.response address session) => some (address, session)
  | .down (.event _ _) => none

def Item.isFor (session : Nat) (item : Item) : Bool := item.asker.any fun asker => asker.2 = session

theorem Item.isFor_of_asker {item : Item} {address : Address} {session : Nat}
    (asker : item.asker = some (address, session)) : item.isFor session = true := by
  rw [isFor, asker]
  exact decide_eq_true rfl

theorem Item.isFor_response {request : Forwarded} (answerable : request.request ≠ .kill)
    (g : Nat) : (down (.response request.address request.session)).isFor g =
      (up request).isFor g := by
  rw [isFor, isFor, asker, asker, if_neg answerable]

/-- A WebSocket session waits for the response to its request. -/
structure Awaited (s : State) : Prop where
  seated : Seated s
  known : ∀ made ∈ s.outstanding, made.2 < s.sessions.length
  home : ∀ item ∈ s.items, ∀ asker, item.asker = some asker →
    ∃ x, s.sessions[asker.2]? = some x ∧ x.address = asker.1
  once (g : Nat) (x : Session) : s.sessions[g]? = some x → x.address.mgr = .ws →
    s.items.countP (isFor g) ≤ if x.reader = .waiting then 1 else 0

theorem Awaited.home_step (awaited : Awaited s) (effect : Effect s s') :
    ∀ item ∈ s'.items, ∀ asker, item.asker = some asker →
      ∃ x, s'.sessions[asker.2]? = some x ∧ x.address = asker.1 := by
  intro item mem asker asks
  have known : ∃ x, s.sessions[asker.2]? = some x ∧ x.address = asker.1 := by
    obtain old | new := effect.comes mem
    · exact awaited.home item old asker asks
    · cases new with
      | asked here =>
        rw [Item.asker] at asks
        split_ifs at asks
        cases asks
        exact ⟨_, here, rfl⟩
      | answered found waits =>
        apply awaited.home _ found asker
        rw [Item.asker, if_neg waits]
        exact asks
      | notified => cases asks
  obtain ⟨x, here, same⟩ := known
  obtain ⟨y, _, _, _, there, next⟩ := effect.next here
  exact ⟨y, there, next.address.trans same⟩

theorem Awaited.waiting (awaited : Awaited s) {item : Item} (mem : item ∈ s.items)
    {address : Address} {g : Nat} (asks : item.asker = some (address, g))
    (webSocket : address.mgr = .ws) :
    ∃ x, s.sessions[g]? = some x ∧ x.address = address ∧ x.reader = .waiting := by
  obtain ⟨x, here, same⟩ := awaited.home item mem (address, g) asks
  refine ⟨x, here, same, ?_⟩
  have count := awaited.once g x here (by rw [same]; exact webSocket)
  have found : 0 < s.items.countP (isFor g) := countP_pos_iff.mpr ⟨item, mem, isFor_of_asker asks⟩
  split_ifs at count with waits
  · exact waits
  · omega

theorem Session.waiting_act {a : Act} (acts : x.act a = some y) (webSocket : x.address.mgr = .ws) :
    y.reader = .waiting ↔ x.reader = .waiting := by
  rw [act.eq_def] at acts
  grind

theorem Session.waiting_ask {request : Option Request} (asks : x.ask valid = some (y, request)) :
    x.reader ≠ .waiting ∧ (y.reader ≠ .waiting → request = none ∨ request = some .kill) := by
  rw [ask.eq_def] at asks
  grind

theorem Turn.balanced (turn : Turn s s' gone fresh) (g : Nat) :
    fresh.countP (isFor g) ≤ gone.countP (isFor g) := by
  cases turn with
  | passed | notified => exact Nat.le_refl _
  | answered request found waits =>
    apply Nat.le_of_eq
    rw [countP_singleton, countP_singleton, isFor_response waits]

theorem Session.Next.others (next : x.Next s i y gone fresh events) {g : Nat} (other : i ≠ g) :
    fresh.countP (isFor g) = 0 := by
  cases next with
  | asked =>
    rw [countP_eq_zero]
    intro item mem isFor
    obtain ⟨kind, -, rfl⟩ := mem_map.mp mem
    obtain ⟨asker, wanted, same⟩ := Option.any_eq_true .. |>.mp isFor
    rw [Item.asker] at wanted
    split_ifs at wanted
    cases wanted
    exact other (of_decide_eq_true same)
  | _ => rfl

theorem Awaited.once_next (awaited : Awaited s) (here : s.sessions[i]? = some x)
    (next : x.Next s i y gone fresh events) (webSocket : y.address.mgr = .ws)
    (moves : Moves s s' gone fresh) :
    s'.items.countP (isFor i) ≤ if y.reader = .waiting then 1 else 0 := by
  rw [next.address] at webSocket
  have count := awaited.once i x here webSocket
  have after := moves (isFor i)
  cases next with
  | same | left => exact Nat.le_trans after count
  | acted a acts =>
    simp only [waiting_act acts webSocket]
    exact Nat.le_trans after count
  | asked valid request asks =>
    obtain ⟨wasNot, told⟩ := waiting_ask asks
    rw [if_neg wasNot] at count
    rw [countP_nil] at after
    have single : (request.toList.map fun request =>
        up ⟨x.address, i, request⟩).countP (isFor i) ≤ 1 := by
      apply Nat.le_trans countP_le_length
      rw [length_map]
      exact length_toList_le
    split_ifs with waits
    · omega
    · obtain rfl | rfl := told waits
      · simp only [toList_none, map_nil, countP_nil] at after
        omega
      · have silent : (up ⟨x.address, i, .kill⟩).isFor i = false := rfl
        simp only [toList_some, map_cons, map_nil, countP_singleton, silent,
          false_eq_true, if_false] at after
        omega
  | received message found takes =>
    cases message with
    | event => exact Nat.le_trans (Nat.le_of_add_right_le after) count
    | response address session =>
      -- the response was the one that the session waited for
      obtain ⟨seat, waits⟩ := of_decide_eq_true takes
      obtain ⟨z, there, home, asking⟩ := awaited.waiting found rfl (by rw [← seat]; exact webSocket)
      have same : i = session := by
        apply awaited.seated.one i session x z here there
          (awaited.seated.held_of_reader here (by rw [waits]; nofun))
          (awaited.seated.held_of_reader there (by rw [asking]; nofun))
        rw [seat, home]
      have gone : [down (.response address session)].countP (isFor i) = 1 := by
        rw [same]
        exact countP_singleton .. |>.trans (if_pos (isFor_of_asker rfl))
      rw [gone, countP_nil] at after
      rw [if_pos waits] at count
      have empty : s'.items.countP (isFor i) = 0 := by omega
      rw [empty]
      exact zero_le _

theorem Awaited.once_step (awaited : Awaited s) (effect : Effect s s') (g : Nat) (y : Session)
    (there : s'.sessions[g]? = some y) (webSocket : y.address.mgr = .ws) :
    s'.items.countP (isFor g) ≤ if y.reader = .waiting then 1 else 0 := by
  have unchanged (here : s.sessions[g]? = some y) {gone fresh : List Item}
      (moves : Moves s s' gone fresh)
      (balanced : fresh.countP (isFor g) ≤ gone.countP (isFor g)) :
      s'.items.countP (isFor g) ≤ if y.reader = .waiting then 1 else 0 := by
    have before := awaited.once g y here webSocket
    have after := moves (isFor g)
    omega
  cases effect with
  | moved gone fresh unseen turn moves =>
    rw [unseen.sessions] at there
    exact unchanged there moves (turn.balanced g)
  | connected address wasFree free sessions written same moves =>
    rw [sessions] at there
    obtain there | ⟨last, -⟩ := getElem?_concat_cases there
    · exact unchanged there moves (Nat.le_refl _)
    · -- nothing can be on its way for a session that has just begun
      have none : s.items.countP (isFor g) = 0 := by
        rw [countP_eq_zero]
        intro item mem isFor
        obtain ⟨asker, asks, same⟩ := Option.any_eq_true .. |>.mp isFor
        obtain ⟨x, here, -⟩ := awaited.home item mem asker asks
        rw [of_decide_eq_true same] at here
        exact Nat.ne_of_lt (List.getElem?_eq_some_iff.mp here).1 last
      have after := moves (isFor g)
      rw [countP_nil] at after
      omega
  | changed i x z gone fresh events before next free sessions written same moves =>
    rw [sessions] at there
    obtain ⟨rfl, rfl⟩ | ⟨chosen, there⟩ := getElem?_set_cases there
    · exact awaited.once_next before next webSocket moves
    · exact unchanged there moves (by rw [next.others chosen]; exact zero_le _)

theorem Awaited.step (awaited : Awaited s) (effect : Effect s s') : Awaited s' where
  seated := awaited.seated.step effect
  known := by
    intro made mem
    apply Nat.lt_of_lt_of_le _ effect.length_le
    obtain old | ⟨x, here, -⟩ := effect.outstanding mem
    · exact awaited.known made old
    · exact (List.getElem?_eq_some_iff.mp here).1
  home := awaited.home_step effect
  once := awaited.once_step effect

theorem awaited_start : Awaited {} where
  seated := seated_start
  known := by
    intro made mem
    cases mem
  home := by
    intro item mem
    cases mem
  once := by
    intro g x here
    cases here

theorem awaited_of_run {history : History State Event Unit}
    (run : Run clientMachine anyStep history s) : Awaited s ∧ s.Routed := by
  induction run with
  | start s begins =>
    rw [show s = {} from begins]
    refine ⟨awaited_start, ?_⟩
    intro mgr item mem
    cases mem
  | @step history t run taken allowed ih =>
    have effect := step_stepped (step_of_taken taken)
    exact ⟨ih.1.step effect.1, effect.2 ih.2⟩

end Vissr.Transport.Clients
