import Vissr.Sending
import Vissr.ServiceMgr.FeederSystem
import Vissr.ServiceMgr.Messages

/-! The service manager and the front end wait for each other on `toFeeder` and `fromFeederRorC`. -/

namespace Vissr.ServiceMgr

open Json Option List Nat Act Process

def FrontendEffect.isRorC : FrontendEffect → Bool
  | .fromFeederRorC _ => true
  | _ => false

variable (s : FeederSystem)

/-- Each of the two is the only receiver the other one could have. -/
def FeederDeadlocked : Prop := s.server.loop.BlockedAt Effect.isToFeeder s.toFeeder ∧
    s.frontend.BlockedAt FrontendEffect.isRorC s.fromFeederRorC
  deriving Decidable

def LoopFits : Prop := s.server.loop.Fits Effect.isToFeeder s.toFeeder
  deriving Decidable

def FrontendFits : Prop := s.frontend.Fits FrontendEffect.isRorC s.fromFeederRorC
  deriving Decidable

def System.offered (s : System) : Option (Map Value) :=
  match s.server with
  | .sending requestMap => some requestMap
  | _ => none

/-- The loop takes a request with room for its messages, and the front end a feeder message with
room to hand it on, unless the other has room for all it has to send. -/
def HasRoom : FeederEvent → Prop
  | .server (.handOver env) =>
    FrontendFits s ∨ ∀ requestMap ∈ s.server.offered,
      s.toFeeder.items.length + messageBound env requestMap ≤ feederBuf
  | .notify _ => LoopFits s ∨ s.fromFeederRorC.items.length < feederBuf
  | _ => True

variable {env : Env} {mgr : Manager}

abbrev Spares {α : Type} (x : Loop α) : Prop := x.Avoids fun e => e.isToFeeder = true

theorem issueMessage_spares {sub : SubscriptionState} {doTrigger : Bool} :
    Spares (issueMessage env sub doTrigger) := by
  simp only [issueMessage]
  split_ifs
  · refine (avoids_await _).bind ?_
    intro data
    exact avoids_emit nofun
  · exact avoids_pure ()

theorem checkRCFilterAndIssueMessages_spares {triggeredPath : Str}
    (subscriptionList : List SubscriptionState) :
    Spares (checkRCFilterAndIssueMessages env triggeredPath subscriptionList) := by
  induction subscriptionList with
  | nil => exact avoids_pure []
  | cons sub rest ih =>
    refine issueMessage_spares.bind ?_
    intro _
    refine ih.bind ?_
    intro others
    exact avoids_pure _

theorem checkSubscriptions_spares {triggeredPath : Str} :
    Spares (checkSubscriptions env triggeredPath mgr) := by
  refine (checkRCFilterAndIssueMessages_spares _).bind ?_
  intro subscriptionList
  exact avoids_pure _

theorem handleRCTick_spares : Spares (handleRCTick env mgr) := by
  simp only [handleRCTick]
  split_ifs
  · exact avoids_pure mgr
  · exact checkSubscriptions_spares

theorem handleCurveLogNotification_spares {clPack : CLPack} :
    Spares (handleCurveLogNotification env clPack mgr) := by
  simp only [handleCurveLogNotification]
  split
  · exact avoids_pure _
  · split
    · exact avoids_halt
    · split_ifs
      · exact avoids_pure _
      · refine (avoids_emit nofun).bind ?_
        intro _
        exact avoids_pure _

variable {frontend : Frontend} {message : Str}

theorem forwardSubscribe_atMost {subId variant : Str} {path : List Value} :
    (forwardSubscribe message subId variant path frontend).AtMost
      FrontendEffect.isRorC 0 := by
  simp only [forwardSubscribe]
  split_ifs <;> exact le_refl 0

theorem forwardUnsubscribe_atMost {subId : Str} :
    (forwardUnsubscribe message subId frontend).AtMost FrontendEffect.isRorC 0 := by
  simp only [forwardUnsubscribe]
  split_ifs <;> exact le_refl 0

theorem receiveToFeeder_atMost :
    (receiveToFeeder message frontend).AtMost FrontendEffect.isRorC 0 := by
  simp only [receiveToFeeder]
  split
  · exact le_refl 0
  · split
    · exact le_refl 0
    · split
      · exact le_refl 0
      · split
        · split
          · exact le_refl 0
          · split
            · exact forwardSubscribe_atMost
            · exact le_refl 0
        · split
          · split
            · exact le_refl 0
            · split
              · exact forwardUnsubscribe_atMost
              · exact le_refl 0
          · split_ifs <;> exact le_refl 0

theorem verifyFeeder_atMost {status : Str} :
    (verifyFeeder message status frontend).AtMost FrontendEffect.isRorC 1 := by
  simp only [verifyFeeder]
  split_ifs
  · exact le_refl 1
  · exact zero_le 1

theorem forwardNotification_atMost {path : Str} :
    (forwardNotification message path frontend).AtMost FrontendEffect.isRorC 1 := by
  simp only [forwardNotification]
  split_ifs
  · exact le_refl 1
  · exact le_refl 1
  · exact zero_le 1
  · exact zero_le 1

theorem receiveFromFeeders_atMost :
    (receiveFromFeeders message frontend).AtMost FrontendEffect.isRorC 1 := by
  simp only [receiveFromFeeders]
  split
  · exact zero_le 1
  · split
    · exact zero_le 1
    · split
      · exact zero_le 1
      · split
        · split
          · exact zero_le 1
          · split
            · exact verifyFeeder_atMost
            · exact zero_le 1
        · split
          · split
            · exact zero_le 1
            · split
              · exact forwardNotification_atMost
              · exact zero_le 1
          · exact zero_le 1

variable {s s' : FeederSystem} {server server' : System}

theorem handler_fits {event : Event} {handler : Loop Manager} {p : Process Manager Effect}
    {c : Channel Str feederBuf}
    (room : ∀ env, event = .handOver env → ∀ request ∈ server.offered,
      c.items.length + messageBound env request ≤ feederBuf)
    (taken : server.handler event = some handler) :
    (p.handle handler).Fits Effect.isToFeeder c := by
  cases event with
  | handOver env =>
    simp only [System.handler] at taken
    split at taken
    · next request offered =>
      cases taken
      refine fits_handle handleRequest_serves.atMost (room env rfl request ?_)
      rw [System.offered, offered]
      rfl
    · cases taken
  | tick =>
    cases taken
    exact fits_handle_silent handleRCTick_spares.atMost
  | feeder =>
    cases taken
    exact fits_handle_silent checkSubscriptions_spares.atMost
  | curveLog =>
    obtain ⟨⟨clPack, mgr⟩, received, rfl⟩ := map_eq_some_iff.mp taken
    exact fits_handle_silent handleCurveLogNotification_spares.atMost
  | _ => cases taken

theorem step_fits {event : Event} {c : Channel Str feederBuf}
    (fits : server.loop.Fits Effect.isToFeeder c)
    (room : ∀ env, event = .handOver env → ∀ request ∈ server.offered,
      c.items.length + messageBound env request ≤ feederBuf)
    (taken : server.step event = some server') : server'.loop.Fits Effect.isToFeeder c := by
  obtain same | ⟨handler, takes, _, loop⟩ | ⟨effect, _, _, loop⟩ := System.step_loop taken
  · rw [Process.Fits, same]
    exact fits
  · rw [loop]
    exact handler_fits room takes
  · rw [loop]
    exact fits.advance

variable {event : FeederEvent}

theorem LoopFits.step (fits : LoopFits s)
    (room : ∀ env, event = .server (.handOver env) → ∀ request ∈ s.server.offered,
      s.toFeeder.items.length + messageBound env request ≤ feederBuf)
    (taken : s.step event = some s') : LoopFits s' := by
  cases FeederSystem.step_cases taken with
  | server internal stepped => exact step_fits fits (fun env same => room env (same ▸ rfl)) stepped
  | send pending sent => exact fits.send pending rfl sent
  | receive received stepped => exact step_fits fits (fun env same => by cases same) stepped
  | route => exact fits.advance
  | take ready received => exact fits.receive received
  | notify | write | forwardRorC | forwardCl | curveLog => exact fits

theorem FrontendFits.step (fits : FrontendFits s)
    (room : ∀ message, event = .notify message → s.fromFeederRorC.items.length < feederBuf)
    (taken : s.step event = some s') : FrontendFits s' := by
  cases FeederSystem.step_cases taken with
  | server | send | route | curveLog => exact fits
  | receive received => exact fits.receive received
  | take => exact fits_handle_silent receiveToFeeder_atMost
  | notify => exact fits_handle receiveFromFeeders_atMost (room _ rfl)
  | write | forwardCl => exact fits.advance
  | forwardRorC pending sent => exact fits.send pending rfl sent

theorem fits_step (fits : LoopFits s ∨ FrontendFits s) (room : HasRoom s event)
    (taken : s.step event = some s') : LoopFits s' ∨ FrontendFits s' := by
  obtain loop | frontend := fits
  · by_cases takesRequest : ∃ env, event = .server (.handOver env)
    · obtain ⟨env, rfl⟩ := takesRequest
      obtain frontend | bound := room
      · exact .inr (frontend.step (fun _ same => by cases same) taken)
      · refine .inl (loop.step ?_ taken)
        rintro _ ⟨⟩
        exact bound
    · exact .inl (loop.step (fun env same => absurd ⟨env, same⟩ takesRequest) taken)
  · by_cases takesMessage : ∃ message, event = .notify message
    · obtain ⟨message, rfl⟩ := takesMessage
      obtain loop | free := room
      · exact .inl (loop.step (fun _ same => by cases same) taken)
      · exact .inr (frontend.step (fun _ _ => free) taken)
    · exact .inr (frontend.step (fun message same => absurd ⟨message, same⟩ takesMessage) taken)

/-- Where things are taken only with room for what follows, the two never wait for each other. -/
theorem no_feeder_deadlock_of_room {history : History FeederSystem FeederEvent Unit}
    (run : Run feederSystem (fun _ t => HasRoom t.before t.event) history s) :
    ¬ FeederDeadlocked s := by
  have fits : LoopFits s ∨ FrontendFits s := by
    refine Run.invariant (fun _ s => LoopFits s ∨ FrontendFits s) ?_ ?_ run
    · rintro s rfl
      exact .inl (by decide)
    · intro history t fits taken room
      exact fits_step fits room (step_of_taken taken)
  intro deadlocked
  obtain loop | frontend := fits
  · exact loop.not_blockedAt deadlocked.1
  · exact frontend.not_blockedAt deadlocked.2

instance (s : FeederSystem) (event : FeederEvent) : Decidable (HasRoom s event) :=
  match event with
  | .server event =>
    match event with
    | .handOver _ => inferInstanceAs (Decidable (_ ∨ _))
    | .request _ | .interval .. | .tick _ | .feeder .. | .curveLog _ | .capture _ | .release _
    | .respond | .notify | .proceed | .forwarded => isTrue trivial
  | .notify _ => inferInstanceAs (Decidable (_ ∨ _))
  | .send | .receive _ | .route | .take | .forward | .curveLog => isTrue trivial

def subscribeSteps : List FeederEvent :=
  [.server (.request (request "subscribe" [("path", .str "Vehicle.Speed"),
      ("filter", .obj [("variant", .str "change"), ("parameter", .str [])])])),
    .server (.handOver redisEnv), .send, .server .respond, .server .forwarded, .take, .forward]

def speedNotification : Str := "\x7b\"action\": \"subscription\", \"path\": \"Vehicle.Speed\"\x7d"

def setMany (count : Nat) : Map Value := request "set" [("data", .arr (replicate count
    (.obj [("path", .str "Vehicle.Seat"), ("value", .str "1")])))]

/-- The notifications fill one channel, the values of a request the other. -/
def floodSteps : List FeederEvent := subscribeSteps ++
    (replicate 32 [FeederEvent.notify speedNotification, .forward]).flatten ++
    [.notify speedNotification, .server (.request (setMany 33)), .server (.handOver redisEnv)] ++
    replicate 32 .send

/-- A notification, and a request to set two values, each with room. -/
theorem no_feeder_deadlock_after_notification :
    ∃ history s, Run feederSystem (fun _ t => HasRoom t.before t.event) history s ∧
      (s.fromFeederRorC.items.length = 1 ∧ s.toFeeder.items.length = 2) ∧ ¬ FeederDeadlocked s := by
  rcases Run.of_execWhile feederSystem {} rfl (fun t => HasRoom t.before t.event) (fun _ _ => id)
    (subscribeSteps ++ [.notify speedNotification, .forward, .server (.request (setMany 2)),
      .server (.handOver redisEnv), .send, .send])
    (fun _ s => s.fromFeederRorC.items.length = 1 ∧ s.toFeeder.items.length = 2)
    (by decide +kernel) with ⟨history, s, run, known⟩
  exact ⟨history, s, run, known, no_feeder_deadlock_of_room run⟩

theorem feeder_deadlock_reached :
    ∃ history s, Run feederSystem anyStep history s ∧ FeederDeadlocked s := by
  exact Run.of_exec feederSystem {} rfl floodSteps _ (by decide +kernel)

end Vissr.ServiceMgr
