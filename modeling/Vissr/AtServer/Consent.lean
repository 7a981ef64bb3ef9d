import Vissr.AtServer.Revocation

/-! Consent: which sessions a token is issued for after an inquiry. -/

namespace Vissr.AtServer

open Json Token List

variable (config : Config) (now : Time) (id : Str) (payload : AtGenPayload)

theorem atJwt_header : (atJwt config now id payload).header =
    (Raw.obj ([("alg".toList, "HS256".toList), ("typ".toList, "JWT".toList)].map claimMember)).render := by
  rw [atJwt, addClaims_header]
  decide

theorem lookupClaim_header (claim : Str) (other : claim ≠ "alg" ∧ claim ≠ "typ") :
    lookupClaim config.crypto (base64Encode (utf8Encode (atJwt config now id payload).header))
      claim = none := by
  rw [atJwt_header, lookupClaim_encoded, unmarshalMap_claims, Option.bind_some, lookup_mapOf]
  simp only [map_cons, map_nil, reverse_cons, reverse_nil, nil_append,
    cons_append, lookup_cons, lookup_nil]
  rw [if_neg other.2, if_neg other.1]
  rfl

/-- The texts of a token are not taken for JSON as claims. -/
structure PlainToken : Prop where
  id : startsJson id = false
  issuer : startsJson config.atIssuer = false
  purpose : startsJson payload.purpose = false
  context : startsJson (claim payload.agt.payloadClaims "clx") = false

theorem itoa_plain (n : Int) : startsJson (itoa n) = false := by
  have chars := itoa_chars n
  cases text : itoa n with
  | nil => rfl
  | cons c =>
    rw [text] at chars
    have first := chars c mem_cons_self
    have brace : c ≠ '\x7b' := by
      rintro rfl
      revert first
      decide
    have bracket : c ≠ '[' := by
      rintro rfl
      revert first
      decide
    simp [startsJson, hasPrefix, isPrefixOf, brace.symm, bracket.symm]

theorem atClaims_plain (plain : PlainToken config id payload) :
    PlainClaims (atClaims config now id payload) := by
  simp only [PlainClaims, atClaims, forall_mem_cons]
  exact ⟨⟨by decide, itoa_plain _⟩, ⟨by decide, itoa_plain _⟩, ⟨by decide, plain.purpose⟩,
    ⟨by decide, plain.context⟩, ⟨by decide, by decide⟩, ⟨by decide, plain.issuer⟩,
    ⟨by decide, plain.id⟩, fun _ mem => by cases mem⟩

theorem atClaims_distinct : Distinct (atClaims config now id payload) := by
  have names : (["iat", "exp", "scp", "clx", "aud", "iss", "jti"] : List Str).Nodup := by decide
  exact names

theorem extractFromToken_generateAt (plain : PlainToken config id payload) (claim : Str)
    (other : claim ≠ "alg" ∧ claim ≠ "typ") :
    extractFromToken config.crypto (generateAt config now (some id) payload) claim =
      ((atClaims config now id payload).lookup claim).getD [] := by
  have text : (atJwt config now id payload).payload =
      (Raw.obj ((keptClaims (atClaims config now id payload)).map claimMember)).render :=
    addClaims_payload _ _ (itoa_ne_nil now.sec) (atClaims_plain config now id payload plain) _ rfl
  have absent := lookupClaim_header config now id payload claim other
  rw [generateAt, extractFromToken_signed _ _ _ _ absent, text,
    lookupClaim_claims _ _ (atClaims_distinct config now id payload)]

def PutsSession (t : ServerStep) (i : Fin listSize) (id : Int) (payload : AtGenPayload) : Prop :=
  (∃ request uuid, t.event.event = .client request uuid ∧
    decodeAtGenPayload config request = .ok payload) ∧
  (validateRequest config t.event.now payload t.before).2 = none ∧
  checkifConsent config.himForest config.pList payload.purpose = some true ∧
  (∃ ask, t.output = .atRequest (.pending id) ask) ∧
  (t.before.pendingList.get i).gatingId = -1 ∧ (t.after.pendingList.get i).gatingId = id ∧
  (t.after.pendingList.get i).atGenData = payload

def RepliesTo (t : ServerStep) (id : Int) (consent : Str) : Prop :=
  ∃ message, t.event.event = .ecf message ∧ acceptedReply config message = some (id, consent)

def Session (i : Fin listSize) (id : Int) (payload : AtGenPayload) : ServerHistory → Prop
  | [] => False
  | t :: history =>
    PutsSession config t i id payload ∨
      (t.after.pendingList.get i).gatingId = id ∧ Session i id payload history

/-- The session is in the slot, and consent was given to it there. -/
def Consented (i : Fin listSize) (id : Int) (payload : AtGenPayload) : ServerHistory → Prop
  | [] => False
  | t :: history =>
    (t.after.pendingList.get i).gatingId = id ∧
      (Consented i id payload history ∨ Session config i id payload history ∧
        ∃ consent ∈ (["YES", "IN_VEHICLE"] : List Str), RepliesTo config t id consent)

/-- A token in answer to an inquiry is for a session that was consented to. -/
def ConsentGates (history : ServerHistory) : Prop :=
  ∀ t earlier, t :: earlier <:+ history → ∀ token consent,
    t.output = .atInquiry (.issued token consent) →
      ∃ request uuid i payload, t.event.event = .client request uuid ∧
        extractGatingId request ≠ -1 ∧
        Consented config i (extractGatingId request) payload earlier ∧
        extractFromToken config.crypto token "scp" = payload.purpose ∧
        extractFromToken config.crypto token "clx" = claim payload.agt.payloadClaims "clx"

/-- An accepted reply names a session and is a known one, and tokens are plain. -/
structure ConsentStep (history : ServerHistory) (t : ServerStep) : Prop where
  reply : ∀ id consent, RepliesTo config t id consent →
    id ≠ -1 ∧ consent ∈ (["YES", "IN_VEHICLE", "NO", "NOT_SET"] : List Str)
  session : ∀ request uuid payload, t.event.event = .client request uuid →
    decodeAtGenPayload config request = .ok payload →
    checkifConsent config.himForest config.pList payload.purpose = some true →
      startsJson payload.purpose = false ∧
        startsJson (claim payload.agt.payloadClaims "clx") = false
  random : ∀ request uuid, t.event.event = .client request uuid →
    contains request "at-request" = false → ∃ id, uuid = some id ∧ startsJson id = false

theorem consentStep_client {history : ServerHistory} {t : ServerStep} (request id : Str)
    (received : t.event.event = .client request (some id)) (plainId : startsJson id = false)
    (plain : ∀ payload, decodeAtGenPayload config request = .ok payload →
      startsJson payload.purpose = false ∧
        startsJson (claim payload.agt.payloadClaims "clx") = false) :
    ConsentStep config history t where
  reply := by
    rintro id consent ⟨message, other, -⟩
    rw [received] at other
    cases other
  session := by
    intro request' uuid payload same decoded _
    rw [received] at same
    cases same
    exact plain payload decoded
  random := by
    intro request' uuid same _
    rw [received] at same
    cases same
    exact ⟨id, rfl, plainId⟩

theorem consentStep_ecf {history : ServerHistory} {t : ServerStep} (message : Str)
    (received : t.event.event = .ecf message)
    (known : ∀ id consent, acceptedReply config message = some (id, consent) →
      id ≠ -1 ∧ consent ∈ (["YES", "IN_VEHICLE", "NO", "NOT_SET"] : List Str)) :
    ConsentStep config history t where
  reply := by
    rintro id consent ⟨message', same, accepted⟩
    rw [received] at same
    cases same
    exact known id consent accepted
  session := by
    intro request uuid payload other
    rw [received] at other
    cases other
  random := by
    intro request uuid other
    rw [received] at other
    cases other

structure SlotInvariant (history : ServerHistory) (i : Fin listSize) (elem : PendingListElem) :
    Prop where
  free : elem.gatingId = -1 → elem.consent = "NOT_SET"
  session : elem.gatingId ≠ -1 → Session config i elem.gatingId elem.atGenData history
  plain : elem.gatingId ≠ -1 → startsJson elem.atGenData.purpose = false ∧
    startsJson (claim elem.atGenData.agt.payloadClaims "clx") = false
  consented : elem.gatingId ≠ -1 → elem.consent ≠ "NOT_SET" → elem.consent ≠ "NO" →
    Consented config i elem.gatingId elem.atGenData history

variable {config} {history : ServerHistory} {t : ServerStep} {i : Fin listSize}

section

variable (before : SlotInvariant config history i (t.before.pendingList.get i))

include before

theorem SlotInvariant.same (unchanged : t.after.pendingList.get i = t.before.pendingList.get i) :
    SlotInvariant config (t :: history) i (t.after.pendingList.get i) := by
  have kept : (t.after.pendingList.get i).gatingId = (t.before.pendingList.get i).gatingId := by
    rw [unchanged]
  rw [unchanged]
  exact
    { free := before.free
      session := fun occupied => .inr ⟨kept, before.session occupied⟩
      plain := before.plain
      consented := fun occupied set refused =>
        ⟨kept, .inl (before.consented occupied set refused)⟩ }

theorem SlotInvariant.put
    (allowed : ConsentStep config history t) {gatingId : Int} {payload : AtGenPayload}
    (puts : PutsSession config t i gatingId payload)
    (consent : (t.after.pendingList.get i).consent = (t.before.pendingList.get i).consent) :
    SlotInvariant config (t :: history) i (t.after.pendingList.get i) := by
  have session : Session config i gatingId payload (t :: history) := .inl puts
  obtain ⟨⟨request, uuid, received, decoded⟩, -, needed, -, free, named, stored⟩ := puts
  have plain := allowed.session request uuid payload received decoded needed
  have notSet : (t.after.pendingList.get i).consent = "NOT_SET" := consent.trans (before.free free)
  refine ⟨fun _ => notSet, fun _ => ?_, fun _ => ?_, fun _ set => absurd notSet set⟩
  · rw [named, stored]
    exact session
  · rw [stored]
    exact plain

theorem SlotInvariant.reply (allowed : ConsentStep config history t) {consent : Str}
    (replies : RepliesTo config t (t.before.pendingList.get i).gatingId consent)
    (stored : t.after.pendingList.get i = { t.before.pendingList.get i with consent }) :
    SlotInvariant config (t :: history) i (t.after.pendingList.get i) := by
  obtain ⟨occupied, given⟩ := allowed.reply _ _ replies
  have kept : (t.after.pendingList.get i).gatingId = (t.before.pendingList.get i).gatingId := by
    rw [stored]
  rw [stored]
  refine ⟨fun free => absurd free occupied, fun _ => .inr ⟨kept, before.session occupied⟩,
    before.plain, fun _ set refused => ⟨kept, .inr ⟨before.session occupied, consent, ?_, replies⟩⟩⟩
  -- of the four replies the two that give consent are left
  simp only [mem_cons, not_mem_nil, or_false] at given ⊢
  obtain yes | inVehicle | no | notSet := given
  · exact .inl yes
  · exact .inr inVehicle
  · exact absurd no refused
  · exact absurd notSet set

end

theorem SlotInvariant.remove (removed : t.after.pendingList.get i =
      { t.before.pendingList.get i with gatingId := -1, consent := "NOT_SET" }) :
    SlotInvariant config (t :: history) i (t.after.pendingList.get i) := by
  rw [removed]
  exact ⟨fun _ => rfl, fun occupied => absurd rfl occupied, fun occupied => absurd rfl occupied,
    fun occupied => absurd rfl occupied⟩

theorem slotInvariant_step (before : ∀ i, SlotInvariant config history i (t.before.pendingList.get i))
    (taken : step config t.before t.event = some (t.after, t.output))
    (allowed : ConsentStep config history t) (i : Fin listSize) :
    SlotInvariant config (t :: history) i (t.after.pendingList.get i) := by
  cases step_pending taken i with
  | same unchanged => exact (before i).same unchanged
  | put gatingId request uuid payload ask received decoded valid needed answered free written =>
    have puts : PutsSession config t i gatingId payload :=
      ⟨⟨request, uuid, received, decoded⟩, valid, needed, ⟨ask, answered⟩, free, by rw [written],
        by rw [written]⟩
    exact (before i).put allowed puts (by rw [written])
  | reply message consent received accepted stored =>
    exact (before i).reply allowed ⟨message, received, accepted⟩ stored
  | remove removed => exact .remove removed

theorem slotInvariant_initial (state : State) (initial : Initial state) (i : Fin listSize) :
    SlotInvariant config [] i (state.pendingList.get i) := by
  rw [initial.1, Slots.get_replicate]
  exact ⟨fun _ => rfl, fun occupied => absurd rfl occupied, fun occupied => absurd rfl occupied,
    fun occupied => absurd rfl occupied⟩

theorem inquiry_consented (plainIssuer : startsJson config.atIssuer = false)
    (before : ∀ i, SlotInvariant config history i (t.before.pendingList.get i))
    (taken : step config t.before t.event = some (t.after, t.output))
    (allowed : ConsentStep config history t) (token consent : Str)
    (answered : t.output = .atInquiry (.issued token consent)) :
    ∃ request uuid i payload, t.event.event = .client request uuid ∧ extractGatingId request ≠ -1 ∧
      Consented config i (extractGatingId request) payload history ∧
      extractFromToken config.crypto token "scp" = payload.purpose ∧
      extractFromToken config.crypto token "clx" = claim payload.agt.payloadClaims "clx" := by
  rw [answered] at taken
  obtain ⟨request, uuid, i, received, inquires, named, set, refused, issued⟩ := step_inquiry taken
  have occupied : (t.before.pendingList.get i).gatingId ≠ -1 :=
    fun free => set ((before i).free free)
  obtain ⟨id, rfl, plainId⟩ := allowed.random request uuid received inquires
  obtain ⟨purpose, context⟩ := (before i).plain occupied
  have plain : PlainToken config id (t.before.pendingList.get i).atGenData :=
    ⟨plainId, plainIssuer, purpose, context⟩
  refine ⟨request, some id, i, (t.before.pendingList.get i).atGenData, received, ?_, ?_, ?_, ?_⟩
  · rw [← named]
    exact occupied
  · rw [← named]
    exact (before i).consented occupied set refused
  · rw [issued, extractFromToken_generateAt config _ _ _ plain _ (by decide)]
    rfl
  · rw [issued, extractFromToken_generateAt config _ _ _ plain _ (by decide)]
    rfl

/-- Consent gates tokens where replies name a session and give known answers. -/
theorem consent_gates_issuance (plainIssuer : startsJson config.atIssuer = false) {state : State}
    (run : Run (machine config) (ConsentStep config) history state) :
    ConsentGates config history := by
  have invariant := run.invariant
    (fun history state => (∀ i, SlotInvariant config history i (state.pendingList.get i)) ∧
      ConsentGates config history)
    (fun state initial => ⟨slotInvariant_initial state initial, fun t earlier suffix => by
      cases eq_nil_of_suffix_nil suffix⟩)
    (fun history t before taken allowed => by
      refine ⟨slotInvariant_step before.1 taken allowed, ?_⟩
      intro t' earlier suffix token consent answered
      obtain here | inside := suffix_cons_iff.mp suffix
      · cases here
        exact inquiry_consented plainIssuer before.1 taken allowed token consent answered
      · exact before.2 t' earlier inside token consent answered)
  exact invariant.2

def ecfEvent (sec : Nat) (message : Str) : Input := ⟨second sec, .ecf message⟩

def consentReply (id consent : Str) : Str :=
  "\x7b\"action\":\"consent-reply\",\"messageId\":\"" ++ id ++
    "\",\"consent\":\"" ++ consent ++ "\"\x7d"

def inquiry (sec : Nat) (request : Str) : Input := ⟨second sec, .client request (some "1".toList)⟩

/-- A reply to -1 is stored in a free slot, where an inquiry without an id finds it. -/
theorem token_without_session : ∃ history state,
    Run (machine sampleConfig) anyStep history state ∧ ¬ ConsentGates sampleConfig history := by
  have start : Run (machine sampleConfig) anyStep [] sampleState :=
    .start sampleState sampleState_initial
  have replied := start.fire (ecfEvent 2000 (consentReply "-1" "YES")) rfl trivial
  have asked := replied.fire (inquiry 2001 "\x7b\"action\":\"at-inquiry\"\x7d") rfl trivial
  refine ⟨_, _, asked, fun gates => ?_⟩
  obtain ⟨request, uuid, i, payload, -, -, consented, -⟩ := gates _ _ suffix_rfl
    (generateAt sampleConfig (second 2001) (some "1".toList) {}) "YES" (by decide +kernel)
  obtain ⟨-, consented | ⟨session, -⟩⟩ := consented
  · exact consented
  · exact session

theorem sampleRequest_plain (request : Str)
    (checked : (match decodeAtGenPayload sampleConfig request with
      | .ok payload => !startsJson payload.purpose &&
          !startsJson (claim payload.agt.payloadClaims "clx")
      | .error _ => true) = true) (payload : AtGenPayload)
    (decoded : decodeAtGenPayload sampleConfig request = .ok payload) :
    startsJson payload.purpose = false ∧
      startsJson (claim payload.agt.payloadClaims "clx") = false := by
  rw [decoded] at checked
  simpa using checked

/-- The way to a token that needs consent. -/
theorem consent_gates_position : ∃ history state,
    Run (machine sampleConfig) (ConsentStep sampleConfig) history state ∧
      (∃ t ∈ history, t.output.issued.isSome = true) ∧ ConsentGates sampleConfig history := by
  have start : Run (machine sampleConfig) (ConsentStep sampleConfig) [] sampleState :=
    .start sampleState sampleState_initial
  have available := start.fire (ecfEvent 1999 "internal-ecfAvailable") rfl
    (consentStep_ecf _ _ rfl fun id consent accepted => by cases accepted)
  have pending := available.fire (inquiry 2000 (atRequestFor "position")) (by decide +kernel)
    (consentStep_client _ _ _ rfl (by decide) (sampleRequest_plain _ (by decide +kernel)))
  have replied := pending.fire (ecfEvent 2001 (consentReply "667" "YES")) rfl
    (consentStep_ecf _ _ rfl fun id consent accepted => by
      have reply : acceptedReply sampleConfig (consentReply "667" "YES") =
          some (667, "YES".toList) := by decide +kernel
      rw [reply] at accepted
      cases accepted
      decide)
  have issued := replied.fire
    (inquiry 2002 "\x7b\"action\":\"at-inquiry\",\"sessionId\":\"667\"\x7d") rfl
    (consentStep_client _ _ _ rfl (by decide) (sampleRequest_plain _ (by decide +kernel)))
  exact ⟨_, _, issued, ⟨_, mem_cons_self, by decide +kernel⟩,
    consent_gates_issuance (by decide) issued⟩

end Vissr.AtServer
