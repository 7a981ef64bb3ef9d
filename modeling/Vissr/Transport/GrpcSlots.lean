import Vissr.Transport.GrpcHolding

/-! On whose behalf the entries of the gRPC manager's calls are freed, and when. -/

namespace Vissr.Transport.Grpc

open Option

variable (s : State)

/-- The call that gets a message, and whether a subscribe has failed. -/
def State.answers : Event → Option (Nat × Bool)
  | .update =>
    match s.hub with
    | .located channel _ _ _ ⟨_, .core call failed⟩ =>
      if channel = call then some (call, failed) else none
    | _ => none
  | _ => none

def State.behalf : Event → Option Nat
  | .update =>
    match s.hub with
    | .located _ _ _ _ ⟨_, .core call _⟩ => some call
    | _ => none
  | .close i | .process i | .sent i _ => some i
  | _ => none

/-- The request or a send failed, the client has gone, or a call has killed it. -/
inductive Reason (s : State) (h : Nat) : Event → Prop
  | failed {event : Event} (told : s.answers event = some (h, true)) : Reason s h event
  | disconnected : Reason s h (.close h)
  | notSent : Reason s h (.sent h false)
  | killed {call : Call} {id : Int} {text : Str} (here : s.calls[h]? = some call)
      (stage : call.stage = .received id ⟨text, .killer⟩) : Reason s h (.process h)

/-- The entry of a unary call is freed with its response, that of a stream for a reason of its own. -/
structure Proper (s : State) (event : Event) (s' : State) : Prop where
  unary (h : Nat) (call : Call) : s.calls[h]? = some call → call.kind = .unary →
    s.tables.Holds h → (¬ s'.tables.Holds h ↔ ∃ failed, s.answers event = some (h, failed))
  stream (h : Nat) (call : Call) : s.calls[h]? = some call → call.kind = .stream →
    s.tables.Holds h → ¬ s'.tables.Holds h → Reason s h event
  own (h : Nat) : s.tables.Holds h → ¬ s'.tables.Holds h → s.behalf event = some h

structure Reset where
  stream : Nat
  id : Int
  /-- the client has gone, a send has failed, or the text is that of a kill -/
  rightful : Bool
deriving DecidableEq

def State.resets : Event → Option Reset
  | .close i =>
    match (s.calls[i]?).map Call.stage with
    | some (.closing id) => some ⟨i, id, true⟩
    | _ => none
  | .sent i false =>
    match (s.calls[i]?).map Call.stage with
    | some (.forwarding id) => some ⟨i, id, true⟩
    | _ => none
  | .process i =>
    match (s.calls[i]?).map Call.stage with
    | some (.received _ delivery) =>
      if classifySubscribeResponse delivery.text = (false, true) then
        some ⟨i, extractClientId delivery.text, delivery.origin = .killer⟩
      else none
    | _ => none
  | _ => none

/-- The words free the entry for the response to a unary call, and for a stream only if its request
has failed. -/
def Fits (freed : Bool) (channel : Nat) : Option Kind → Origin → Prop
  | some .unary, .core call _ => freed = decide (call = channel)
  | some .stream, .core call failed => freed = true → call = channel ∧ failed = true
  | _, _ => freed = false

instance (freed : Bool) (channel : Nat) (kind : Option Kind) (origin : Origin) :
    Decidable (Fits freed channel kind origin) :=
  match kind, origin with
  | some .unary, .core call _ => inferInstanceAs (Decidable (freed = decide (call = channel)))
  | some .stream, .core call failed =>
    inferInstanceAs (Decidable (freed = true → call = channel ∧ failed = true))
  | some .unary, .full | some .unary, .killer | some .stream, .full | some .stream, .killer
  | none, .core _ _ | none, .full | none, .killer => inferInstanceAs (Decidable (freed = false))

/-- The words fit, if the entry of the message is still there. -/
def State.Responds : Hub → Prop
  | .located channel multiple clientId response delivery =>
    s.tables.holder clientId = some channel →
      Fits (frees response multiple) channel ((s.calls[channel]?).map Call.kind)
        delivery.origin
  | _ => True

instance (s : State) (hub : Hub) : Decidable (s.Responds hub) :=
  match hub with
  | .located channel multiple clientId response delivery =>
    inferInstanceAs (Decidable (s.tables.holder clientId = some channel →
      Fits (frees response multiple) channel ((s.calls[channel]?).map Call.kind)
        delivery.origin))
  | .idle | .allocated _ _ | .sending _ _ => inferInstanceAs (Decidable True)

/-- Where the hub is when it changes the table. -/
def State.responding : Event → Hub
  | .update => s.hub
  | _ => .idle

/-- The ids that a stream frees are its own; and the words of the messages fit. -/
def KeepsSlots (event : Event) : Prop := (∀ reset ∈ s.resets event, ∀ h ∈ s.tables.holder reset.id,
    h = reset.stream ∧ reset.rightful = true) ∧
  s.Responds (s.responding event)
  deriving Decidable

variable {s s' : State} {event : Event}

theorem proper_of_kept (kept : ∀ h, s.tables.Holds h → s'.tables.Holds h)
    (silent : ∀ h call failed, s.calls[h]? = some call → call.kind = .unary →
      s.tables.Holds h → s.answers event ≠ some (h, failed)) : Proper s event s' where
  unary := by
    intro h call here unary holds
    refine iff_of_false (fun freed => freed (kept h holds)) ?_
    intro told
    obtain ⟨failed, answers⟩ := told
    exact silent h call failed here unary holds answers
  stream := by
    intro h call here stream holds freed
    exact absurd (kept h holds) freed
  own := by
    intro h holds freed
    exact absurd (kept h holds) freed

variable {i channel : Nat} {call : Call} {id : Int} {multiple : Bool} {response text : Str}
  {delivery : Delivery} {origin : Origin}

theorem proper_freed_iff (held : Held s) (here : s.calls[i]? = some call)
    (frees : Frees s i call event id) (reset : s.tables.resetGrpcRoutingData id = some s'.tables) :
    Proper s event s' ↔ ∀ h ∈ s.tables.holder id, h = i ∧ Reason s i event := by
  have silent : s.answers event = none := by
    cases frees <;> rfl
  have behalf : s.behalf event = some i := by
    cases frees <;> rfl
  have stream : call.kind = .stream := by
    apply held.streams i call here
    cases frees with
    | close stage | process stage | sent stage =>
      rw [stage]
      rfl
  have after (h : Nat) := @holds_reset_iff _ _ id h held.once reset
  constructor
  · intro proper h found
    have holds := Tables.Holds.of_holder found
    have freed : ¬ s'.tables.Holds h := fun still => ((after h).mp still).2 found
    have same : h = i := some.inj ((proper.own h holds freed).symm.trans behalf)
    subst same
    exact ⟨rfl, proper.stream h call here stream holds freed⟩
  · intro own
    have gone (h : Nat) (holds : s.tables.Holds h) (freed : ¬ s'.tables.Holds h) :
        s.tables.holder id = some h := by
      by_contra other
      exact freed ((after h).mpr ⟨holds, other⟩)
    refine ⟨?_, ?_, ?_⟩
    · intro h other there unary holds
      rw [silent]
      refine iff_of_false ?_ nofun
      intro freed
      rw [(own h (gone h holds freed)).1, here] at there
      cases there
      rw [stream] at unary
      cases unary
    · intro h other there _ holds freed
      have mine := own h (gone h holds freed)
      rw [mine.1]
      exact mine.2
    · intro h holds freed
      rw [behalf, (own h (gone h holds freed)).1]

theorem Frees.resets (here : s.calls[i]? = some call) (frees : Frees s i call event id) :
    ∃ rightful, s.resets event = some ⟨i, id, rightful⟩ ∧ (rightful = true ↔ Reason s i event) := by
  cases frees with
  | close stage =>
    refine ⟨true, ?_, iff_of_true rfl .disconnected⟩
    simp only [State.resets, here, map_some, stage]
  | @process known delivery stage isKill =>
    refine ⟨decide (delivery.origin = .killer), ?_, ?_⟩
    · simp only [State.resets, here, map_some, stage, isKill, if_true]
    · rw [decide_eq_true_eq]
      constructor
      · intro origin
        refine @Reason.killed s i call known delivery.text here ?_
        rw [stage, ← origin]
      · intro reason
        cases reason with
        | failed told => cases told
        | killed there killed =>
          rw [here] at there
          cases there
          rw [stage] at killed
          cases killed
          rfl
  | sent stage =>
    refine ⟨true, ?_, iff_of_true rfl .notSent⟩
    simp only [State.resets, here, map_some, stage]

theorem frees_own_iff (held : Held s) (here : s.calls[i]? = some call)
    (frees : Frees s i call event id) (reset : s.tables.resetGrpcRoutingData id = some s'.tables) :
    Proper s event s' ↔ KeepsSlots s event := by
  have idle : s.responding event = .idle := by
    cases frees <;> rfl
  obtain ⟨rightful, resets, reason⟩ := frees.resets here
  rw [proper_freed_iff held here frees reset, KeepsSlots, resets, idle]
  simp [State.Responds, reason]

theorem Held.holder_of_holds (held : Held s)
    (hub : s.hub = .located channel multiple id response delivery)
    (holds : s.tables.Holds channel) : s.tables.holder id = some channel := by
  obtain ⟨i, used, mine⟩ := holds
  have same : (s.tables.grpcRoutingDataList.get i).clientId = id := by
    obtain same | free := (held.located channel multiple id response delivery hub i).1 mine
    · exact same
    · exact absurd free used
  have given : 0 ≤ id := by
    rw [← same]
    exact held.agree.given used
  exact Tables.holder_eq_some.mpr ⟨given, i, (held.agree.entry_iff given).mpr same, mine⟩

theorem Held.holder_eq (held : Held s) {h : Nat}
    (hub : s.hub = .located channel multiple id response delivery)
    (found : s.tables.holder id = some h) : h = channel := by
  obtain ⟨given, i, entry, mine⟩ := Tables.holder_eq_some.mp found
  have same := (held.located channel multiple id response delivery hub i).2 given
    (Tables.entry_eq_some entry)
  rw [mine] at same
  exact some.inj same

section

variable (hub : s.hub = .located channel multiple id response ⟨text, origin⟩)

include hub

theorem answers_update (h : Nat) (failed : Bool) :
    s.answers .update = some (h, failed) ↔ origin = .core h failed ∧ h = channel := by
  simp only [State.answers, hub]
  cases origin with
  | core =>
    simp only
    split_ifs with same
    · subst same
      simp only [some.injEq, Prod.mk.injEq, Origin.core.injEq]
      constructor
      · intro both
        exact ⟨both, both.1.symm⟩
      · intro both
        exact both.1
    · constructor
      · nofun
      · intro both
        cases both.1
        exact absurd both.2.symm same
  | full => simp
  | killer => simp

theorem proper_update_kept_iff (here : s.calls[channel]? = some call)
    (holds : s.tables.Holds channel) (kept : ∀ h, s.tables.Holds h → s'.tables.Holds h) :
    Proper s .update s' ↔ (call.kind = .unary → ∀ failed, origin ≠ .core channel failed) := by
  constructor
  · intro proper unary failed told
    have answered : s.answers .update = some (channel, failed) :=
      (answers_update hub channel failed).mpr ⟨told, rfl⟩
    exact (proper.unary channel call here unary holds).mpr ⟨failed, answered⟩
      (kept channel holds)
  · intro silent
    apply proper_of_kept kept
    intro h other failed there unary _ answers
    obtain ⟨told, same⟩ := (answers_update hub h failed).mp answers
    rw [same, here] at there
    cases there
    rw [same] at told
    exact silent unary failed told

theorem proper_update_freed_iff (here : s.calls[channel]? = some call)
    (holds : s.tables.Holds channel)
    (freed : ∀ h, s'.tables.Holds h ↔ s.tables.Holds h ∧ h ≠ channel) : Proper s .update s' ↔
      ∃ failed, origin = .core channel failed ∧ (call.kind = .stream → failed = true) := by
  have gone : ¬ s'.tables.Holds channel := fun still => ((freed channel).mp still).2 rfl
  have only (h : Nat) (held : s.tables.Holds h) (lost : ¬ s'.tables.Holds h) : h = channel := by
    by_contra other
    exact lost ((freed h).mpr ⟨held, other⟩)
  constructor
  · intro proper
    cases kind : call.kind with
    | unary =>
      obtain ⟨failed, answers⟩ := (proper.unary channel call here kind holds).mp gone
      exact ⟨failed, ((answers_update hub channel failed).mp answers).1, nofun⟩
    | stream =>
      cases proper.stream channel call here kind holds gone with
      | failed told =>
        exact ⟨true, ((answers_update hub channel true).mp told).1, fun _ => rfl⟩
  · intro told
    obtain ⟨failed, rfl, reason⟩ := told
    have answers : s.answers .update = some (channel, failed) :=
      (answers_update hub channel failed).mpr ⟨rfl, rfl⟩
    refine ⟨?_, ?_, ?_⟩
    · intro h other there unary held
      constructor
      · intro lost
        rw [only h held lost]
        exact ⟨failed, answers⟩
      · intro answered
        obtain ⟨told, answered⟩ := answered
        rw [answers] at answered
        cases answered
        exact gone
    · intro h other there stream held lost
      have same := only h held lost
      subst same
      rw [here] at there
      cases there
      rw [reason stream] at answers
      exact .failed answers
    · intro h held lost
      rw [only h held lost]
      simp only [State.behalf, hub]

end

theorem proper_update_iff (held : Held s) {tables : Tables}
    (hub : s.hub = .located channel multiple id response delivery)
    (changed : s.tables.updateRoutingList response id multiple = some tables) :
    Proper s .update { s with tables, hub := .sending channel delivery } ↔
      KeepsSlots s .update := by
  obtain ⟨text, origin⟩ := delivery
  have kept (same : ∀ h, tables.Holds h ↔ s.tables.Holds h) (h : Nat)
      (holds : s.tables.Holds h) : tables.Holds h := (same h).mpr holds
  by_cases there : s.tables.holder id = some channel
  · have holds := Tables.Holds.of_holder there
    obtain ⟨i, used, mine⟩ := holds
    obtain ⟨call, here, -⟩ := held.entered i channel mine
    have holds : s.tables.Holds channel := ⟨i, used, mine⟩
    have fits : KeepsSlots s .update ↔ Fits (frees response multiple) channel (some call.kind)
        origin := by
      simp [KeepsSlots, State.resets, State.responding, State.Responds, hub, there, here]
    rw [fits]
    obtain ⟨frees, reset⟩ | ⟨keeps, same⟩ := updateRoutingList_cases changed
    · rw [proper_update_freed_iff hub here holds]
      · cases kind : call.kind <;> cases origin <;> simp [frees, Fits]
      · intro h
        rw [holds_reset_iff held.once reset, there]
        simp [eq_comm]
    · rw [proper_update_kept_iff hub here holds]
      · cases kind : call.kind <;> cases origin <;> simp [keeps, Fits]
      · apply kept
        intro h
        obtain rfl | ⟨subId, rfl⟩ := same
        · exact Iff.rfl
        · exact holds_update_iff subId
  · have silent : ¬ s.tables.Holds channel := fun holds => there (held.holder_of_holds hub holds)
    refine iff_of_true ?_ ?_
    · apply proper_of_kept
      · intro h holds
        obtain ⟨-, reset⟩ | ⟨-, rfl | ⟨subId, rfl⟩⟩ := updateRoutingList_cases changed
        · rw [holds_reset_iff held.once reset]
          refine ⟨holds, ?_⟩
          intro found
          rw [held.holder_eq hub found] at found
          exact there found
        · exact holds
        · exact (holds_update_iff subId).mpr holds
      · intro h call failed here unary holds answers
        rw [((answers_update hub h failed).mp answers).2] at holds
        exact silent holds
    · refine ⟨nofun, ?_⟩
      rw [State.responding, hub]
      intro found
      exact absurd found there

theorem proper_step_iff (held : Held s) (change : Change s event s') :
    Proper s event s' ↔ KeepsSlots s event := by
  have same (kept : ∀ h, s.tables.Holds h → s'.tables.Holds h) (silent : s.answers event = none)
      (nothing : s.resets event = none) (idle : s.responding event = .idle) :
      Proper s event s' ↔ KeepsSlots s event := by
    refine iff_of_true (proper_of_kept kept ?_) ⟨by rw [nothing]; nofun, by rw [idle]; trivial⟩
    intro h call failed _ _ _
    rw [silent]
    nofun
  cases change with
  | began | unknown | killed | located | delivered => exact same (fun _ => id) rfl rfl rfl
  | moved i call here moves =>
    cases moves with
    | missed | found | gaveUp | done | sent => exact same (fun _ => id) rfl rfl rfl
    | failed stage isError =>
      refine same (fun _ => id) rfl ?_ rfl
      simp only [State.resets, here, map_some, stage]
      rw [if_neg]
      intro isKill
      rw [isKill] at isError
      cases isError
    | learned stage plain =>
      refine same (fun _ => id) rfl ?_ rfl
      simp only [State.resets, here, map_some, stage, plain]
      rfl
  | freed i call here frees tables reset => exact frees_own_iff held here frees reset
  | took =>
    apply same _ rfl rfl rfl
    intro h holds
    rw [Tables.Holds, routing_getClientId]
    exact holds
  | entered i => exact same (fun _ holds => holds.set (some i) _) rfl rfl rfl
  | updated channel multiple clientId response delivery tables hub changed =>
    exact proper_update_iff held hub changed

/-- Every entry is freed as it should be just in case every step keeps the slots. -/
theorem grpc_slots_proper_iff {history : History State Event Unit}
    (run : Run callMachine anyStep history s) : (∀ t ∈ history, Proper t.before t.event t.after) ↔
      ∀ t ∈ history, KeepsSlots t.before t.event := by
  refine Run.forall_iff Held ?_ ?_ run
  · rintro s rfl
    exact held_start
  · intro t held taken
    have change := step_change (step_of_taken taken)
    exact ⟨proper_step_iff held change, fun _ => held.step change⟩

def getting : List Event :=
  [.begin ⟨.unary, "\x7b\"action\":\"get\",\"path\":\"Vehicle.Speed\"\x7d", .requesting⟩,
    .take 0, .enter,
    .locate "\x7b\"RouterId\":\"3?0\",\"action\":\"get\",\"data\":\"5\"\x7d" 0 false,
    .update, .deliver]

def subscribing (call : Nat) : List Event :=
  [.begin ⟨.stream, "\x7b\"action\":\"subscribe\",\"path\":\"Vehicle.Text\"\x7d",
      .requesting⟩,
    .take call, .enter,
    .locate "\x7b\"RouterId\":\"3?0\",\"action\":\"subscribe\",\"subscriptionId\":\"7\"\x7d"
      call false,
    .update, .deliver, .process call, .sent call true]

instance (t : Tables) (h : Nat) : Decidable (t.Holds h) :=
  inferInstanceAs (Decidable (∃ i, (t.grpcRoutingDataList.get i).clientId ≠ -1 ∧
    (t.grpcRoutingDataList.get i).grpcRespChannel = some h))

/-- A unary call is answered, and then the client of a stream goes. -/
theorem grpc_slots_proper_calls : ∃ history s, Run callMachine anyStep history s ∧
    (∃ t ∈ history, t.before.tables.Holds 0 ∧ ¬ t.after.tables.Holds 0) ∧
    (∃ t ∈ history, t.before.tables.Holds 1 ∧ ¬ t.after.tables.Holds 1) ∧
    ∀ t ∈ history, Proper t.before t.event t.after := by
  rcases Run.of_exec callMachine {} rfl (getting ++ subscribing 1 ++ [.done 1, .close 1])
      (fun history _ => (∃ t ∈ history, t.before.tables.Holds 0 ∧ ¬ t.after.tables.Holds 0) ∧
        (∃ t ∈ history, t.before.tables.Holds 1 ∧ ¬ t.after.tables.Holds 1) ∧
        ∀ t ∈ history, KeepsSlots t.before t.event)
      (by decide +kernel) with ⟨history, s, run, first, second, keeps⟩
  exact ⟨history, s, run, first, second, (grpc_slots_proper_iff run).mpr keeps⟩

def subscribingText : List Event := subscribing 0 ++
  [.locate ("\x7b\"RouterId\":\"3?0\",\"action\":\"subscription\"," ++
      "\"data\":\"unsubscribe\",\"subscriptionId\":\"7\"\x7d") 0 false,
    .update]

/-- The stream's entry is freed by an event. -/
theorem grpc_slot_freed_by_event : ∃ history s, Run callMachine anyStep history s ∧
    ∃ t ∈ history, t.before.answers t.event = some (0, false) ∧
      ¬ Proper t.before t.event t.after := by
  rcases Run.of_exec callMachine {} rfl subscribingText
      (fun history _ => ∃ t ∈ history, t.before.answers t.event = some (0, false) ∧
        (t.before.calls[0]?).map Call.kind = some .stream ∧ t.before.tables.Holds 0 ∧
        ¬ t.after.tables.Holds 0)
      (by decide +kernel) with ⟨history, s, run, t, member, answers, kind, holds, freed⟩
  refine ⟨history, s, run, t, member, answers, ?_⟩
  intro proper
  obtain ⟨call, here, stream⟩ := map_eq_some_iff.mp kind
  cases t with
  | mk =>
    cases proper.stream 0 call here stream holds freed with
    | failed told => cases answers.symm.trans told
    | disconnected | notSent | killed => cases answers

end Vissr.Transport.Grpc
