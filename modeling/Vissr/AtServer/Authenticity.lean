import Vissr.AtServer.Consent
import Vissr.ReplayCache

/-! What the token server takes for authentic: messages of the ECF, and proofs of possession. -/

namespace Vissr.AtServer

open Json Token Option List ReplayCache.Guard

/-- The authenticated messages of the consent framework. -/
inductive ConsentAction where
  | reply
  | cancel
  deriving DecidableEq

def ConsentAction.name : ConsentAction → Str
  | .reply => "consent-reply"
  | .cancel => "consent-cancel"

def Accepts (config : Config) : ConsentAction → Str → Prop
  | .reply, message => ∃ parsed, parseConsentReply config message = .ok parsed
  | .cancel, message => ∃ parsed, parseConsentCancel config message = .ok parsed

theorem digitChar_inj : ∀ m < 16, ∀ n < 16, Nat.digitChar m = Nat.digitChar n → m = n := by
  decide

theorem hexEncode_inj {a b : Bytes} (bytesA : AreBytes a) (bytesB : AreBytes b)
    (same : hexEncode a = hexEncode b) : a = b := by
  induction a generalizing b with
  | nil =>
    cases b with
    | nil => rfl
    | cons => cases same
  | cons x a ih =>
    cases b with
    | nil => cases same
    | cons y =>
      obtain ⟨belowX, restA⟩ := forall_mem_cons.mp bytesA
      obtain ⟨belowY, restB⟩ := forall_mem_cons.mp bytesB
      injection same with high same
      injection same with low rest
      have upper := digitChar_inj _ (by omega) _ (by omega) high
      have lower := digitChar_inj _ (by omega) _ (by omega) low
      have head : x = y := by omega
      rw [head, ih restA restB rest]

theorem signed_inj {a b : ConsentAction} {idA idB consentA consentB : Str} (plainA : '|' ∉ idA)
    (plainB : '|' ∉ idB) (same : a.name ++ '|' :: idA ++ '|' :: consentA =
      b.name ++ '|' :: idB ++ '|' :: consentB) : a = b ∧ idA = idB ∧ consentA = consentB := by
  have plain (action : ConsentAction) : '|' ∉ action.name := by
    cases action <;> decide
  rw [append_assoc, append_assoc, cons_append, cons_append] at same
  obtain ⟨names, rest⟩ := append_cons_inj (plain a) (plain b) same
  obtain ⟨ids, consents⟩ := append_cons_inj plainA plainB rest
  refine ⟨?_, ids, consents⟩
  cases a <;> cases b <;> first | rfl | exact absurd names (by decide)

variable {config : Config} {action : ConsentAction} {message : Str}

theorem Accepts.signed (secret : config.ecfSecret ≠ []) (accepts : Accepts config action message) :
    '|' ∉ extractKeyValue "messageId" message ∧
    ∃ consent, (action = .reply → consent = extractKeyValue "consent" message) ∧
      computeEcfHmac config action.name (extractKeyValue "messageId" message) consent =
        extractKeyValue "hmac" message := by
  have numeral {id : Str} {n : Int} (read : atoi id = some n) : '|' ∉ id := fun inside =>
    absurd (atoi_chars read _ inside) (by decide)
  have verified {action id consent presented : Str}
      (passed : ¬ (!verifyEcfHmac config action id consent presented) = true) :
      computeEcfHmac config action id consent = presented := by
    simpa [verifyEcfHmac, secret] using passed
  cases action with
  | reply =>
    obtain ⟨parsed, accepted⟩ := accepts
    unfold parseConsentReply at accepted
    split at accepted
    · cases accepted
    · next request decoded =>
      split at accepted
      · next id consent hasId hasConsent =>
        split_ifs at accepted with passed
        split at accepted
        · next n read =>
          simp only [extractKeyValue, decoded, hasId, hasConsent, getD_some]
          exact ⟨numeral read, consent, fun _ => rfl, verified passed⟩
        · cases accepted
      · cases accepted
  | cancel =>
    obtain ⟨parsed, accepted⟩ := accepts
    unfold parseConsentCancel at accepted
    split at accepted
    · cases accepted
    · next request decoded =>
      split at accepted
      · next id hasId =>
        split_ifs at accepted with passed
        split at accepted
        · next n read =>
          simp only [extractKeyValue, decoded, hasId, getD_some]
          exact ⟨numeral read, [], nofun, verified passed⟩
        · cases accepted
      · cases accepted

/-- Two accepted messages with one code say the same of one session. -/
theorem hmac_binds_message (config : Config) (secret : config.ecfSecret ≠ [])
    (injective : Function.Injective (config.crypto.hmac config.ecfSecret))
    {a b : ConsentAction} {first second : Str} (acceptsA : Accepts config a first)
    (acceptsB : Accepts config b second)
    (same : extractKeyValue "hmac" first = extractKeyValue "hmac" second) :
    a = b ∧ extractKeyValue "messageId" first = extractKeyValue "messageId" second ∧
      (a = .reply → extractKeyValue "consent" first = extractKeyValue "consent" second) := by
  obtain ⟨plainA, consentA, readA, codeA⟩ := acceptsA.signed secret
  obtain ⟨plainB, consentB, readB, codeB⟩ := acceptsB.signed secret
  rw [← codeA, ← codeB] at same
  have signed := injective (hexEncode_inj (config.crypto.hmac_bytes _ _)
    (config.crypto.hmac_bytes _ _) same)
  obtain ⟨kinds, ids, consents⟩ := signed_inj plainA plainB signed
  refine ⟨kinds, ids, fun reply => ?_⟩
  rw [← readA reply, ← readB (kinds ▸ reply), consents]

def secretConfig : Config :=
  { sampleConfig with
    crypto := { openCrypto with
      hmac := fun _ message => utf8Encode message
      hmac_bytes := fun _ message => utf8Encode_bytes message }
    ecfSecret := "ecf" }

def signedReply (space : Str) : Str :=
  space ++ "\x7b\"messageId\":\"667\",\"consent\":\"YES\",\"hmac\":\"" ++
    computeEcfHmac secretConfig "consent-reply" "667" "YES" ++ "\"\x7d"

theorem hmac_binds_reply :
    extractKeyValue "consent" (signedReply []) = extractKeyValue "consent" (signedReply [' ']) := by
  have accepted (space : Str)
      (parsed : (parseConsentReply secretConfig (signedReply space)).toOption =
        some (667, "YES".toList)) : Accepts secretConfig .reply (signedReply space) := by
    cases result : parseConsentReply secretConfig (signedReply space) with
    | ok parsed => exact ⟨parsed, result⟩
    | error =>
      rw [result] at parsed
      cases parsed
  exact (hmac_binds_message secretConfig (by decide)
    (Function.LeftInverse.injective utf8Decode_utf8Encode) (accepted [] (by decide +kernel))
    (accepted [' '] (by decide +kernel)) (by decide +kernel)).2.2 rfl

/-- The clock at a number of nanoseconds of the Unix epoch. -/
def clockAt (nanoseconds : Int) : Time := ⟨nanoseconds / 10 ^ 9, (nanoseconds % 10 ^ 9).toNat⟩

theorem checkIat_window {now : Time} {gap lifetime : Int} {pop : PopToken} (gaps : 0 ≤ gap)
    (lives : 0 ≤ lifetime) (valid : pop.checkIat now gap lifetime = true) :
    ∃ iat, atoi (claim pop.payloadClaims "iat") = some iat ∧ iat - gap < now.sec ∧
      now.sec < iat + gap + lifetime := by
  unfold PopToken.checkIat at valid
  split at valid
  · next iat read =>
    simp only [Bool.and_eq_true, decide_eq_true_eq] at valid
    have fits := atoi_fits read
    rw [fitsInt_iff] at fits
    -- a sum that leaves the range only makes the window smaller
    have upper : wrap64 (iat + gap + lifetime) ≤ iat + gap + lifetime := by
      unfold wrap64
      omega
    have lower : iat - gap ≤ wrap64 (iat - gap) := by
      unfold wrap64
      omega
    exact ⟨iat, read, by omega, by omega⟩
  · cases valid

/-- The calls of `validatePop`, and the timers that delete proof ids. -/
def popGuard (config : Config) : ReplayCache.Guard State AtGenPayload Str where
  key := fun payload => claim payload.popTk.payloadClaims "jti"
  call := fun now payload state =>
    let result := validatePop config (clockAt now) payload state
    (result.1, result.2 = none)
  inserts := fun payload state => claim payload.popTk.payloadClaims "jti" ∉ state.jtiCache
  delete := fun jti state => { state with jtiCache := state.jtiCache.filter (· ≠ jti) }
  wait := (gap + lifetime + 5) * 10 ^ 9

def SameProof (a b : AtGenPayload) : Prop :=
  claim a.popTk.payloadClaims "jti" = claim b.popTk.payloadClaims "jti" ∧
    claim a.popTk.payloadClaims "iat" = claim b.popTk.payloadClaims "iat"

theorem validatePop_none_iff {now : Time} {payload : AtGenPayload} {state : State} :
    (validatePop config now payload state).2 = none ↔
      claim payload.popTk.payloadClaims "jti" ∉ state.jtiCache ∧
        payload.popTk.checkSignature config.crypto = true ∧
        payload.popTk.checkIat now gap lifetime = true ∧
        payload.popTk.checkThumb (claim payload.agt.payloadClaims "pub") = true ∧
        payload.popTk.checkAud "vissv2/agts" = true := by
  unfold validatePop addCheckJti
  split_ifs <;> simp_all

theorem popGuard_keeps (config : Config) (now : Int) (payload : AtGenPayload) (state : State) :
    (popGuard config).Keeps (fun jti state => jti ∈ state.jtiCache) now payload state where
  accepted := fun accepted => by
    have none_ := of_decide_eq_true accepted
    exact decide_eq_true (validatePop_none_iff.mp none_).1
  fresh := of_decide_eq_true
  stored := fun jti => by
    simp only [popGuard, validatePop_state, addCheckJti]
    split_ifs with known
    · simp only [known, not_true_eq_false, decide_false, Bool.false_eq_true, false_and, false_or]
    · simp only [known, not_false_eq_true, decide_true, true_and, mem_cons]

/-- No proof of possession is accepted twice. -/
theorem pop_not_replayed (config : Config) {empty : State} (fresh : empty.jtiCache = [])
    {history : ReplayCache.Calls State AtGenPayload Str} {s : ReplayCache.Timed State Str}
    (run : Run ((popGuard config).machine empty) anyStep history s) :
    ReplayCache.NoReplay SameProof history := by
  refine no_replay ?_ ?_ (fun a b same => same.1) ?_
    (fun _ t now token _ _ => popGuard_keeps config now token _) run
  · intro jti
    rw [fresh]
    exact not_mem_nil
  · intro jti gone state
    simp only [popGuard, mem_filter, decide_eq_true_eq, and_comm, ne_eq]
  · intro now past a b c d later earlier same
    obtain ⟨iat, readA, -, above⟩ := checkIat_window (by decide) (by decide)
      (validatePop_none_iff.mp (of_decide_eq_true later)).2.2.1
    obtain ⟨iat', readB, below, -⟩ := checkIat_window (by decide) (by decide)
      (validatePop_none_iff.mp (of_decide_eq_true earlier)).2.2.1
    rw [same.2, readB] at readA
    cases readA
    simp only [clockAt, popGuard, gap, lifetime] at above below ⊢
    omega

def provenPayload : AtGenPayload where
  agt := { payloadClaims := [("pub", "key")] }
  popTk :=
    { headerClaims := [("alg", "RS256")]
      payloadClaims := [("jti", "1"), ("iat", "1000"), ("aud", "vissv2/agts")]
      jwk := { thumb := "key" } }

theorem pop_not_replayed_repeated : ∃ history s,
    Run ((popGuard sampleConfig).machine sampleState) anyStep history s ∧
      history.map (fun t => t.output) = [false, true] ∧ ReplayCache.NoReplay SameProof history := by
  obtain ⟨history, s, run, refused⟩ := Run.of_exec ((popGuard sampleConfig).machine sampleState)
    ⟨sampleState, [], 0⟩ ⟨rfl, rfl⟩
    [.call (1000 * 10 ^ 9) provenPayload, .call (1001 * 10 ^ 9) provenPayload]
    (fun history _ => history.map (fun t => t.output) = [false, true]) (by decide +kernel)
  exact ⟨history, s, run, refused, pop_not_replayed sampleConfig rfl run⟩

/-- The other checks pass, and no earlier call with a valid signature had the id. -/
structure Entitled (config : Config) (earlier : ReplayCache.Calls State AtGenPayload Str)
    (now : Int) (payload : AtGenPayload) : Prop where
  signature : payload.popTk.checkSignature config.crypto = true
  iat : payload.popTk.checkIat (clockAt now) gap lifetime = true
  key : payload.popTk.checkThumb (claim payload.agt.payloadClaims "pub") = true
  aud : payload.popTk.checkAud "vissv2/agts" = true
  unused : ∀ u ∈ earlier, ∀ past used, u.event = .call past used →
    used.popTk.checkSignature config.crypto = true →
      claim used.popTk.payloadClaims "jti" ≠ claim payload.popTk.payloadClaims "jti"

def EveryEntitled (config : Config) (good : ReplayCache.Calls State AtGenPayload Str →
      Transition (ReplayCache.Timed State Str) (ReplayCache.Event AtGenPayload) Bool →
        AtGenPayload → Prop) : ReplayCache.Calls State AtGenPayload Str → Prop
  | [] => True
  | t :: earlier =>
    (∀ now payload, t.event = .call now payload → Entitled config earlier now payload →
      good earlier t payload) ∧ EveryEntitled config good earlier

/-- A call with an invalid signature had the id since it was last deleted. -/
def Burnt (config : Config) (jti : Str) : ReplayCache.Calls State AtGenPayload Str → Prop
  | [] => False
  | t :: earlier =>
    match t.event with
    | .call _ used =>
      (jti = claim used.popTk.payloadClaims "jti" ∧
        used.popTk.checkSignature config.crypto = false) ∨ Burnt config jti earlier
    | .fires _ timer =>
      (t.before.timers[timer]?).map Prod.fst ≠ some jti ∧ Burnt config jti earlier

section

variable {empty : State} (fresh : empty.jtiCache = [])
  {history : ReplayCache.Calls State AtGenPayload Str} {s : ReplayCache.Timed State Str}

include fresh

/-- Only calls with an invalid signature put in an id that no other call had. -/
theorem mem_jtiCache_iff (run : Run ((popGuard config).machine empty) anyStep history s) {jti : Str}
    (unused : ∀ u ∈ history, ∀ past used, u.event = .call past used →
      used.popTk.checkSignature config.crypto = true →
        claim used.popTk.payloadClaims "jti" ≠ jti) :
    jti ∈ s.cache.jtiCache ↔ Burnt config jti history := by
  induction run with
  | start s begins =>
    rw [begins.1, fresh]
    exact iff_of_false not_mem_nil id
  | @step earlier t run taken allowed ih =>
    rw [forall_mem_cons] at unused
    change (popGuard config).step t.before t.event = some (t.after, t.output) at taken
    cases event : t.event with
    | call now used =>
      rw [event] at taken
      have stored := (popGuard_keeps config now used t.before.cache).stored jti
      simp only [(step_call taken).2.2, Burnt, event, stored, ← ih unused.2]
      constructor
      · rintro (⟨-, same⟩ | known)
        · refine .inl ⟨same, Bool.eq_false_iff.mpr ?_⟩
          intro signed
          exact unused.1 now used event signed same.symm
        · exact .inr known
      · rintro (⟨same, -⟩ | known)
        · by_cases known : jti ∈ t.before.cache.jtiCache
          · exact .inr known
          · exact .inl ⟨decide_eq_true (same ▸ known), same⟩
        · exact .inr known
    | fires now timer =>
      rw [event, ReplayCache.Guard.step] at taken
      simp only [Burnt, event, ← ih unused.2]
      split at taken
      · next key due there =>
        split_ifs at taken
        rw [← (Prod.mk.inj (some.inj taken)).1, there, map_some, ne_eq, some.injEq, eq_comm]
        simp only [popGuard, mem_filter, decide_eq_true_eq, and_comm, ne_eq]
      · cases taken

/-- An entitled proof is granted just when its id is not burnt. -/
theorem entitled_accepted_iff (run : Run ((popGuard config).machine empty) anyStep history s) :
    EveryEntitled config (fun _ t _ => t.output = true) history ↔
      EveryEntitled config (fun earlier _ payload =>
        ¬ Burnt config (claim payload.popTk.payloadClaims "jti") earlier) history := by
  induction run with
  | start => exact Iff.rfl
  | @step earlier t run taken allowed ih =>
    refine and_congr ?_ ih
    refine forall₄_congr fun now payload called entitled => ?_
    change (popGuard config).step t.before t.event = some (t.after, t.output) at taken
    rw [called] at taken
    have accepted : t.output = true ↔
        (validatePop config (clockAt now) payload t.before.cache).2 = none := by
      rw [(step_call taken).2.1]
      exact decide_eq_true_iff
    have granted := (accepted.trans validatePop_none_iff).trans
      (and_iff_left ⟨entitled.signature, entitled.iat, entitled.key, entitled.aud⟩)
    exact granted.trans (mem_jtiCache_iff fresh run entitled.unused).not

end

def forgedPayload : AtGenPayload :=
  { provenPayload with popTk := { provenPayload.popTk with headerClaims := [] } }

/-- When the timer of the forged proof has fired, the genuine one passes. -/
theorem entitled_accepted_later : ∃ history s,
    Run ((popGuard sampleConfig).machine sampleState) anyStep history s ∧
      history.map Transition.event = [.call (1000 * 10 ^ 9) provenPayload,
        .fires (1000 * 10 ^ 9) 0, .call (600 * 10 ^ 9) forgedPayload] ∧
      history.map Transition.output = [true, false, false] ∧
      EveryEntitled sampleConfig (fun _ t _ => t.output = true) history := by
  have start : Run ((popGuard sampleConfig).machine sampleState) anyStep [] ⟨sampleState, [], 0⟩ :=
    .start _ ⟨rfl, rfl⟩
  have forged := start.fire (.call (600 * 10 ^ 9) forgedPayload) rfl trivial
  have deleted := forged.fire (.fires (1000 * 10 ^ 9) 0) (by decide +kernel) trivial
  have proven := deleted.fire (.call (1000 * 10 ^ 9) provenPayload) rfl trivial
  refine ⟨_, _, proven, rfl, by decide +kernel, (entitled_accepted_iff rfl proven).mpr
    ⟨?_, ?_, ?_, trivial⟩⟩
  · intro now payload called _ burnt
    cases called
    exact burnt.1 (by decide +kernel)
  · intro now payload called
    cases called
  · intro now payload called _
    exact id

/-- A forged proof with the id of a genuine one makes the server refuse that. -/
theorem proof_burnt : ∃ history s,
    Run ((popGuard sampleConfig).machine sampleState) anyStep history s ∧
      ¬ EveryEntitled sampleConfig (fun _ t _ => t.output = true) history := by
  have start : Run ((popGuard sampleConfig).machine sampleState) anyStep [] ⟨sampleState, [], 0⟩ :=
    .start _ ⟨rfl, rfl⟩
  obtain ⟨s, clock, cache, run⟩ := run_call start
    (by decide : (0 : Int) ≤ 1000 * 10 ^ 9) forgedPayload fun _ => trivial
  obtain ⟨after, -, -, run⟩ := run_call run (Int.le_of_eq clock)
    provenPayload fun _ => trivial
  refine ⟨_, _, run, fun all => ?_⟩
  have unsigned : forgedPayload.popTk.checkSignature sampleConfig.crypto ≠ true := by decide +kernel
  have granted : ((popGuard sampleConfig).call (1000 * 10 ^ 9) provenPayload s.cache).2 = true :=
    all.1 _ _ rfl ⟨by decide +kernel, by decide +kernel, by decide +kernel,
    by decide +kernel, by
      rintro u mem past used called signed
      cases mem_singleton.mp mem
      cases called
      exact absurd signed unsigned⟩
  rw [cache] at granted
  exact absurd granted (by decide +kernel)

end Vissr.AtServer
