import Vissr.AtServer.Steps

/-! Revocation: what becomes of a token whose entry has left the active list. -/

namespace Vissr.AtServer

open Json Token Option List

abbrev ServerStep := Transition State Input Output
abbrev ServerHistory := History State Input Output

def removesToken (t : ServerStep) (token : Str) : Prop :=
  ∃ i, (t.before.activeList.get i).gatingId ≠ -1 ∧ (t.after.activeList.get i).gatingId = -1 ∧
    (t.before.activeList.get i).atoken = token
  deriving Decidable

def writesToken (t : ServerStep) (token : Str) : Prop :=
  ∃ i, (t.before.activeList.get i).gatingId = -1 ∧
    t.after.activeList.get i ≠ t.before.activeList.get i ∧
    (t.after.activeList.get i).atoken = token
  deriving Decidable

def Revoked (token : Str) : ServerHistory → Prop
  | [] => False
  | t :: history => removesToken t token ∨ Revoked token history ∧ ¬ writesToken t token

instance decideRevoked (token : Str) : (history : ServerHistory) → Decidable (Revoked token history)
  | [] => inferInstanceAs (Decidable False)
  | t :: history =>
    have := decideRevoked token history
    inferInstanceAs (Decidable (removesToken t token ∨ Revoked token history ∧ ¬ writesToken t token))

def presentedToken (order : MapOrder) (input : Str) : Option Str :=
  (unmarshalMap input).map fun m => (extractAtValidatePayloadLevel1 (order.iterate m)).token

/-- No later request for a revoked token or its handle is answered with "0". -/
def RevocationEffective (config : Config) (history : ServerHistory) (state : State) : Prop :=
  ∀ token, Revoked token history → ∀ now, (∀ t ∈ history, t.event.now.le now) →
      ∀ order input answer, (presentedToken order input = some token ∨
          presentedToken order input = some (extractSignature token)) →
        tokenValidationResponse config now order input state = some answer → answer.validation ≠ 0

def Issued (history : ServerHistory) (token : Str) : Prop :=
  ∃ t ∈ history, t.output.issued = some token

/-- Only what has expired is cancelled, and no two tokens are alike. -/
structure RevocationStep (config : Config) (history : ServerHistory) (t : ServerStep) : Prop where
  cancelled : ∀ message gatingId text i, t.event.event = .ecf message →
    acceptedCancel config message = some (gatingId, text) → gatingId ≠ -1 →
    (t.before.activeList.get i).gatingId = gatingId →
      ∃ seconds, atoi (t.before.activeList.get i).atExpiryTime = some seconds ∧
        t.event.now.after seconds = true
  signature : ∀ token other, t.output.issued = some token → Issued history other →
    extractSignature token = extractSignature other → token = other

variable (config : Config)

def Generated (token : Str) : Prop := ∃ now uuid payload, token = generateAt config now uuid payload

theorem extractSignature_generateAt (now : Time) (id : Str) (payload : AtGenPayload) :
    extractSignature (generateAt config now (some id) payload) =
      base64Encode (config.crypto.hmac config.theAtSecret
        (atJwt config now id payload).encode.signed) :=
  congrArg (getD · []) (afterLast_fullToken _ _ _)

/-- A signature has no dot, and what stands in for a token holds a brace. -/
theorem generated_ne_signature (a b : Str) (first : Generated config a)
    (second : Generated config b) : a ≠ extractSignature b := by
  intro same
  have noDot : '.' ∉ a := by
    rw [same]
    exact not_mem_afterLast '.' b
  obtain ⟨now, uuid, payload, rfl⟩ := first
  obtain ⟨now', uuid', payload', rfl⟩ := second
  cases uuid with
  | some =>
    apply noDot
    simp [generateAt, JsonWebToken.getFullToken]
  | none =>
    have brace : '\x7b' ∈ internalError := by decide
    have text : internalError = extractSignature (generateAt config now' uuid' payload') := same
    cases uuid' with
    | none =>
      have absent : ¬ internalError = extractSignature internalError := by decide
      exact absent text
    | some =>
      rw [text, extractSignature_generateAt] at brace
      exact (base64Encode_char _ (config.crypto.hmac_bytes _ _) _ brace).2.2.2 rfl

/-- A slot has the handle and expiry time of its token; what was revoked had expired. -/
structure RevocationInvariant (history : ServerHistory) (state : State) : Prop where
  handle : ∀ i, (state.activeList.get i).atokenHandle =
    extractSignature (state.activeList.get i).atoken
  expiry : ∀ i, (state.activeList.get i).atExpiryTime =
    extractFromToken config.crypto (state.activeList.get i).atoken "exp"
  known : ∀ i, (state.activeList.get i).atoken = [] ∨ Issued history (state.activeList.get i).atoken
  generated : ∀ token, Issued history token → Generated config token
  signatures : ∀ a b, Issued history a → Issued history b →
    extractSignature a = extractSignature b → a = b
  expired : ∀ token, Revoked token history → (token = [] ∨ Issued history token) ∧
    ∃ t ∈ history, ∃ seconds, atoi (extractFromToken config.crypto token "exp") = some seconds ∧
      t.event.now.after seconds = true

theorem revocationInvariant_initial (state : State) (initial : Initial state) :
    RevocationInvariant config [] state := by
  obtain ⟨-, active, -⟩ := initial
  have slot (i : Fin listSize) : state.activeList.get i = {} := by rw [active, Slots.get_replicate]
  refine ⟨?_, ?_, ?_, ?_, ?_, ?_⟩
  · intro i
    rw [slot i]
    rfl
  · intro i
    rw [slot i]
    rfl
  · intro i
    rw [slot i]
    exact .inl rfl
  · rintro token ⟨t, mem, -⟩
    cases mem
  · rintro a b ⟨t, mem, -⟩
    cases mem
  · intro token revoked
    cases revoked

theorem Issued.cons {history : ServerHistory} {token : Str} (t : ServerStep)
    (issued : Issued history token) : Issued (t :: history) token := by
  obtain ⟨t', mem, output⟩ := issued
  exact ⟨t', mem_cons_of_mem _ mem, output⟩

variable {history : ServerHistory} {t : ServerStep}

theorem removed_expired (before : RevocationInvariant config history t.before)
    (taken : step config t.before t.event = some (t.after, t.output))
    (allowed : RevocationStep config history t) (i : Fin listSize)
    (occupied : (t.before.activeList.get i).gatingId ≠ -1)
    (freed : (t.after.activeList.get i).gatingId = -1) :
    ∃ seconds, atoi (extractFromToken config.crypto (t.before.activeList.get i).atoken "exp") =
      some seconds ∧ t.event.now.after seconds = true := by
  rw [← before.expiry i]
  cases step_active taken i with
  | same unchanged =>
    rw [unchanged] at freed
    exact absurd freed occupied
  | write gatingId token free => exact absurd free occupied
  | cancel message gatingId text received accepted named =>
    exact allowed.cancelled message gatingId text i received accepted (named ▸ occupied) named
  | expire seconds ticked time past => exact ⟨seconds, time, past⟩

theorem revocationInvariant_step (before : RevocationInvariant config history t.before)
    (taken : step config t.before t.event = some (t.after, t.output))
    (allowed : RevocationStep config history t) :
    RevocationInvariant config (t :: history) t.after := by
  have fresh (token : Str) (issued : t.output.issued = some token) :
      Issued (t :: history) token := ⟨t, mem_cons_self, issued⟩
  have older (token : Str) (issued : Issued (t :: history) token) :
      t.output.issued = some token ∨ Issued history token := by
    obtain ⟨t', member, output⟩ := issued
    obtain rfl | member := mem_cons.mp member
    · exact .inl output
    · exact .inr ⟨t', member, output⟩
  refine ⟨?_, ?_, ?_, ?_, ?_, ?_⟩
  · intro i
    cases step_active taken i with
    | same unchanged =>
      rw [unchanged]
      exact before.handle i
    | write gatingId token free issued written =>
      rw [written]
      rfl
    | cancel _ _ _ _ _ _ removed | expire _ _ _ _ removed =>
      rw [removed]
      exact before.handle i
  · intro i
    cases step_active taken i with
    | same unchanged =>
      rw [unchanged]
      exact before.expiry i
    | write gatingId token free issued written =>
      rw [written]
      rfl
    | cancel _ _ _ _ _ _ removed | expire _ _ _ _ removed =>
      rw [removed]
      exact before.expiry i
  · intro i
    cases step_active taken i with
    | same unchanged =>
      rw [unchanged]
      exact (before.known i).imp_right (Issued.cons t)
    | write gatingId token free issued written =>
      rw [written]
      exact .inr (fresh token issued)
    | cancel _ _ _ _ _ _ removed | expire _ _ _ _ removed =>
      rw [removed]
      exact (before.known i).imp_right (Issued.cons t)
  · intro token issued
    obtain now | earlier := older token issued
    · obtain ⟨uuid, payload, same⟩ := step_issued taken now
      exact ⟨t.event.now, uuid, payload, same⟩
    · exact before.generated token earlier
  · intro a b issuedA issuedB same
    obtain nowA | earlierA := older a issuedA
    · obtain nowB | earlierB := older b issuedB
      · rw [nowA] at nowB
        exact some.inj nowB
      · exact allowed.signature a b nowA earlierB same
    · obtain nowB | earlierB := older b issuedB
      · exact (allowed.signature b a nowB earlierA same.symm).symm
      · exact before.signatures a b earlierA earlierB same
  · intro token revoked
    obtain ⟨i, occupied, freed, rfl⟩ | ⟨revoked, -⟩ := revoked
    · obtain ⟨seconds, time, past⟩ := removed_expired config before taken allowed i occupied freed
      exact ⟨(before.known i).imp_right (Issued.cons t), t, mem_cons_self, seconds, time, past⟩
    · obtain ⟨known, t', member, seconds, time, past⟩ := before.expired token revoked
      exact ⟨known.imp_right (Issued.cons t), t', mem_cons_of_mem _ member, seconds, time, past⟩

theorem getCompleteToken_revoked {state : State}
    (invariant : RevocationInvariant config history state) (token presented : Str)
    (known : token = [] ∨ Issued history token)
    (asked : presented = token ∨ presented = extractSignature token) :
    getCompleteToken presented state = [] ∨ getCompleteToken presented state = token := by
  obtain none_ | ⟨i, found, hit⟩ := getCompleteToken_cases presented state
  · exact .inl none_
  rw [found]
  rw [invariant.handle i] at hit
  obtain empty | issued := invariant.known i
  · exact .inl empty
  obtain rfl | known := known
  · -- without a token the handle is empty too, and nothing is looked up
    have blank : presented = [] := by
      rcases asked with rfl | rfl <;> rfl
    left
    rw [← found, getCompleteToken, if_pos blank]
  have made := invariant.generated _ issued
  have made' := invariant.generated _ known
  right
  obtain rfl | rfl := asked
  · obtain same | same := hit
    · exact same.symm
    · exact absurd same (generated_ne_signature config _ _ made' made)
  · obtain same | same := hit
    · exact absurd same.symm (generated_ne_signature config _ _ made made')
    · exact (invariant.signatures _ _ known issued same).symm

/-- Revocation is effective where nothing but expired tokens is cancelled. -/
theorem revocation_effective_of_expired {state : State}
    (run : Run (machine config) (RevocationStep config) history state) :
    RevocationEffective config history state := by
  have invariant := run.invariant (RevocationInvariant config)
    (revocationInvariant_initial config)
    (fun history t before taken allowed => revocationInvariant_step config before taken allowed)
  intro token revoked now later order input answer asked answered valid
  obtain ⟨known, t, member, seconds, time, past⟩ := invariant.expired token revoked
  obtain ⟨inputMap, decoded, checked⟩ := tokenValidationResponse_zero answered valid
  obtain ⟨signature, -, unexpired⟩ := validateToken_zero checked
  have presented : (extractAtValidatePayloadLevel1 (order.iterate inputMap)).token = token ∨
      (extractAtValidatePayloadLevel1 (order.iterate inputMap)).token = extractSignature token := by
    simpa [presentedToken, decoded] using asked
  obtain none_ | same := getCompleteToken_revoked config invariant token _ known presented
  · rw [none_, verifyTokenSignature_nil] at signature
    cases signature
  · rw [same] at unexpired
    obtain ⟨exp, time', open_⟩ := validateTokenExpiry_zero unexpired
    rw [time] at time'
    cases time'
    rw [Time.after_mono _ _ _ (later t member) past] at open_
    cases open_

def openCrypto : Crypto where
  hmac := fun _ message => [message.length % 256]
  hmac_bytes := by
    intro key message b member
    rw [mem_singleton.mp member]
    exact Nat.mod_lt _ (by decide)
  sha256 := fun message => [message.length % 256]
  rsaVerify := fun _ _ _ _ => true
  ecdsaVerify := fun _ _ _ _ _ => true
  formatFloat := fun _ => []

def speedNode : Tree.Node := .mk { name := "Speed", nodeType := .sensor, validate := 2 } []

def positionNode : Tree.Node := .mk { name := "Position", nodeType := .sensor, validate := 12 } []

def sampleTree : Tree.Node :=
  .mk { name := "Vehicle", nodeType := .branch } [speedNode, positionNode]

def anyContext : List ContextElement := [⟨["Owner"], ["OEM"], ["Cloud"]⟩]

def sampleConfig : Config where
  crypto := openCrypto
  agtKey := ([], [])
  theAtSecret := "secret"
  atIssuer := "issuer"
  ecfSecret := []
  himForest := [⟨"Vehicle", some sampleTree, [], fun _ same => by cases same; rfl⟩]
  pList := [⟨"speed", anyContext, [⟨"Vehicle.Speed", "read-only"⟩]⟩,
     ⟨"position", anyContext, [⟨"Vehicle.Position", "read-only"⟩]⟩]
  sList := []

def sampleAgt : Str := JsonWebToken.getFullToken <| JsonWebToken.encode
    { header := "\x7b\"alg\":\"RS256\"\x7d"
      payload := "\x7b\"iat\":\"1000\",\"exp\":\"99000\",\"clx\":\"Owner+OEM+Cloud\"\x7d" }

def atRequestFor (purpose : Str) : Str :=
  "\x7b\"action\":\"at-request\",\"agToken\":\"" ++ sampleAgt ++
    "\",\"purpose\":\"" ++ purpose ++ "\"\x7d"

def validationRequest (token path : Str) : Str :=
  "\x7b\"token\":\"" ++ token ++ "\",\"paths\":[\"" ++ path ++
    "\"],\"action\":\"get\",\"validation\":\"2\"\x7d"

/-- A map is walked over in the order of its keys in the text. -/
def textOrder : MapOrder := .asListed

def sampleState : State := { gatingId := 666 }

theorem sampleState_initial : Initial sampleState := ⟨rfl, rfl, by decide, by decide, rfl, rfl⟩

def second (n : Nat) : Time := ⟨n, 0⟩

def requestSpeed : Input := ⟨second 2000, .client (atRequestFor "speed") (some "1".toList)⟩

def speedToken : Str := generateAt sampleConfig (second 2000) (some "1")
    { token := sampleAgt
      purpose := "speed"
      agt := { payloadClaims := [("clx", "Owner+OEM+Cloud")] } }

theorem requestSpeed_enabled :
    ((machine sampleConfig).step sampleState requestSpeed).isSome = true := by
  decide +kernel

def cancelSpeed : Input :=
  ⟨second 2001, .ecf "\x7b\"action\":\"consent-cancel\",\"messageId\":\"667\"\x7d"⟩

/-- The token is cancelled by the consent framework, and presented again. -/
theorem cancelled_token_valid : ∃ history state, Run (machine sampleConfig) anyStep history state ∧
      ¬ RevocationEffective sampleConfig history state := by
  obtain ⟨history, state, run, found⟩ := Run.of_exec (machine sampleConfig) sampleState
    sampleState_initial [requestSpeed, cancelSpeed]
    (fun history state => Revoked speedToken history ∧ (∀ t ∈ history, t.event.now.sec < 2002) ∧
      (tokenValidationResponse sampleConfig (second 2002) textOrder
        (validationRequest speedToken "Vehicle.Speed") state).map (·.validation) = some 0)
    (by decide +kernel)
  obtain ⟨revoked, earlier, answered⟩ := found
  obtain ⟨answer, response, valid⟩ := map_eq_some_iff.mp answered
  have asked : presentedToken textOrder (validationRequest speedToken "Vehicle.Speed") =
      some speedToken := by
    decide +kernel
  exact ⟨history, state, run, fun effective =>
    effective speedToken revoked (second 2002) (fun t member => .inl (earlier t member))
      textOrder _ answer (.inl asked) response valid⟩

theorem revocation_effective_purge : ∃ history state,
    Run (machine sampleConfig) (RevocationStep sampleConfig) history state ∧ Revoked speedToken history ∧
      RevocationEffective sampleConfig history state := by
  have start : Run (machine sampleConfig) (RevocationStep sampleConfig) [] sampleState :=
    .start sampleState sampleState_initial
  have first := start.fire requestSpeed requestSpeed_enabled
    { cancelled := fun message gatingId text i received => by cases received
      signature := fun token other _ earlier => by
        obtain ⟨t, member, -⟩ := earlier
        cases member }
  have purged := first.fire ⟨second 6000, .expiryTicker⟩ rfl
    { cancelled := fun message gatingId text i received => by cases received
      signature := fun token other now => by cases now }
  exact ⟨_, _, purged, by decide +kernel, revocation_effective_of_expired sampleConfig purged⟩

end Vissr.AtServer
