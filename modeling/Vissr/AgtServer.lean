import Vissr.AtServer.Authenticity

/-! The long-term tokens of the grant server and its proof ids (`server/agt_server/agt_server.go`). -/

namespace Vissr.AgtServer

open Json Token AtServer List Option Nat Function PopToken

structure Payload where
  vin : Str := []
  context : Str := []
  key : Str := []
  deriving DecidableEq

structure State where
  jtiCache : List Str := []
  jtiCacheOrder : List Str := []

structure Config where
  crypto : Crypto
  /-- the signature under the private key of the server -/
  sign : Str → Option Bytes

def ltDuration : Int := 4 * 24 * 60 * 60
def gap : Int := 3
def lifetime : Int := 5 * 60
def maxJtiCacheSize : Nat := 10000

/-- A full cache forgets the oldest id. -/
def evict (state : State) : State :=
  match state.jtiCacheOrder with
  | oldest :: order =>
    if maxJtiCacheSize ≤ state.jtiCache.length then
      ⟨state.jtiCache.filter (· ≠ oldest), order⟩
    else state
  | [] => state

variable (jti : Str)

def addCheckJti (state : State) : State × Bool :=
  if jti ∈ state.jtiCache then (state, false)
  else (⟨jti :: (evict state).jtiCache, (evict state).jtiCacheOrder ++ [jti]⟩, true)

def deleteJtiNow (state : State) : State :=
  ⟨state.jtiCache.filter (· ≠ jti), state.jtiCacheOrder.erase jti⟩

variable (config : Config)

/-- `PopToken.Validate`. -/
def validate (now : Time) (thumbprint aud : Str) (pop : PopToken) : Bool :=
  pop.checkIat now gap lifetime && pop.checkAud aud && pop.checkThumb thumbprint &&
    pop.checkSignature config.crypto

inductive LtResponse where
  | error (text : Str)
  | token (text : Str)
  deriving DecidableEq

def LtResponse.render : LtResponse → Str
  | .error text =>
    "\x7b\"action\": \"agt-request\", \"error\": \"" ++ text ++ "\"\x7d"
  | .token text =>
    "\x7b\"action\": \"agt-request\", \"token\":\"" ++ text ++ "\"\x7d"

def LtResponse.issued : LtResponse → Bool
  | .token _ => true
  | .error _ => false

/-- One that cannot be signed goes out without a signature. -/
def ltToken (now : Time) (uuid : Str) (payload : Payload) : Str :=
  let jwt := (addClaims
    [("vin", payload.vin), ("iat", itoa now.sec), ("exp", itoa (now.sec + ltDuration)),
     ("clx", payload.context), ("aud", "w3org/gen2"), ("iss", "vissr-agt-server"), ("jti", uuid),
     ("pub", payload.key)] (JsonWebToken.setHeader "RS256" {})).encode
  match config.sign jwt.signed with
  | some signature => { jwt with encodedSignature := base64Encode signature }.getFullToken
  | none => jwt.getFullToken

/-- The signature is checked before the id is used up, the rest after. -/
def generateLTAgt (now : Time) (uuid : Str) (payload : Payload) (pop : Str)
    (state : State) : State × LtResponse :=
  match unmarshal config.crypto pop {} with
  | none => (state, .error "Client request malformed")
  | some popToken =>
    if !popToken.checkSignature config.crypto then (state, .error "Invalid POP signature")
    else
      let (state, fresh) := addCheckJti (claim popToken.payloadClaims "jti") state
      if !fresh then (state, .error "Repeated JTI")
      else if !validate config now payload.key "vissv2/agts" popToken then
        (state, .error "Invalid POP Token")
      else (state, .token (ltToken config now uuid payload))

/-- A request, with the random id that is drawn for the token. -/
structure Request where
  payload : Payload
  pop : Str
  uuid : Str

def Request.popToken (request : Request) : PopToken :=
  (unmarshal config.crypto request.pop {}).getD {}

/-- The calls of `generateLTAgt`, and the timers that delete proof ids. -/
def ltGuard : ReplayCache.Guard State Request Str where
  key := fun request => claim (request.popToken config).payloadClaims "jti"
  call := fun now request state =>
    let result := generateLTAgt config (clockAt now) request.uuid request.payload request.pop state
    (result.1, result.2.issued)
  inserts := fun request state =>
    (unmarshal config.crypto request.pop {}).isSome &&
      (request.popToken config).checkSignature config.crypto &&
      claim (request.popToken config).payloadClaims "jti" ∉ state.jtiCache
  delete := deleteJtiNow
  wait := (gap + lifetime + 5) * 10 ^ 9

def SameProof (a b : Request) : Prop :=
  claim (a.popToken config).payloadClaims "jti" = claim (b.popToken config).payloadClaims "jti" ∧
    claim (a.popToken config).payloadClaims "iat" = claim (b.popToken config).payloadClaims "iat"

def RoomLeft (_ : ReplayCache.Calls State Request Str)
    (t : Transition (ReplayCache.Timed State Str) (ReplayCache.Event Request) Bool) : Prop :=
  ∀ now request, t.event = .call now request →
    (ltGuard config).inserts request t.before.cache = true →
      t.before.cache.jtiCache.length < maxJtiCacheSize

variable {config : Config} {now : Int} {request : Request} {state : State}

theorem evict_room (room : state.jtiCache.length < maxJtiCacheSize) : evict state = state := by
  unfold evict
  split
  · rw [if_neg (not_le.mpr room)]
  · rfl

theorem ltGuard_call {after : State} {response : LtResponse}
    (called : generateLTAgt config (clockAt now) request.uuid request.payload request.pop state =
      (after, response)) : (ltGuard config).call now request state = (after, response.issued) := by
  show ((generateLTAgt _ _ _ _ _ _).1, (generateLTAgt _ _ _ _ _ _).2.issued) = _
  rw [called]

theorem popToken_eq {popToken : PopToken}
    (decoded : unmarshal config.crypto request.pop {} = some popToken) :
    request.popToken config = popToken := by
  rw [Request.popToken, decoded]
  rfl

theorem ltGuard_inserts (inserts : (ltGuard config).inserts request state = true) :
    (ltGuard config).call now request state =
      ((addCheckJti (claim (request.popToken config).payloadClaims "jti") state).1,
        validate config (clockAt now) request.payload.key "vissv2/agts" (request.popToken config)) := by
  simp only [ltGuard, Bool.and_eq_true, decide_eq_true_eq] at inserts
  obtain ⟨⟨decodes, signed⟩, fresh⟩ := inserts
  obtain ⟨popToken, decoded⟩ := isSome_iff_exists.mp decodes
  rw [popToken_eq decoded] at signed fresh ⊢
  have added : (addCheckJti (claim popToken.payloadClaims "jti") state).2 = true := by
    rw [addCheckJti, if_neg fresh]
  cases valid : validate config (clockAt now) request.payload.key "vissv2/agts" popToken with
  | true =>
    refine @ltGuard_call _ _ _ _ _ (.token (ltToken config (clockAt now) request.uuid
      request.payload)) ?_
    simp only [generateLTAgt, decoded, signed, added, valid, Bool.not_true, Bool.false_eq_true,
      if_false]
  | false =>
    refine @ltGuard_call _ _ _ _ _ (.error "Invalid POP Token") ?_
    simp only [generateLTAgt, decoded, signed, added, valid, Bool.not_true, Bool.false_eq_true,
      if_false, Bool.not_false, if_true]

theorem ltGuard_inserts_not (inserts : (ltGuard config).inserts request state = false) :
    (ltGuard config).call now request state = (state, false) := by
  cases decoded : unmarshal config.crypto request.pop {} with
  | none =>
    refine @ltGuard_call _ _ _ _ _ (.error "Client request malformed") ?_
    simp only [generateLTAgt, decoded]
  | some popToken =>
    cases signed : popToken.checkSignature config.crypto with
    | false =>
      refine @ltGuard_call _ _ _ _ _ (.error "Invalid POP signature") ?_
      simp only [generateLTAgt, decoded, signed, Bool.not_false, if_true]
    | true =>
      have known : claim popToken.payloadClaims "jti" ∈ state.jtiCache := by
        simp only [ltGuard, decoded, popToken_eq decoded, signed, isSome_some, Bool.true_and,
          decide_eq_false_iff_not, not_not] at inserts
        exact inserts
      have repeated : addCheckJti (claim popToken.payloadClaims "jti") state = (state, false) :=
        if_pos known
      refine @ltGuard_call _ _ _ _ _ (.error "Repeated JTI") ?_
      simp only [generateLTAgt, decoded, signed, repeated, Bool.not_true, Bool.false_eq_true,
        if_false, Bool.not_false, if_true]

theorem ltGuard_keeps (config : Config) (now : Int) (request : Request) (state : State)
    (room : (ltGuard config).inserts request state = true → state.jtiCache.length < maxJtiCacheSize) :
    (ltGuard config).Keeps (fun jti state => jti ∈ state.jtiCache) now request state := by
  cases inserts : (ltGuard config).inserts request state with
  | false =>
    refine ⟨?_, fun held => ?_, fun jti => ?_⟩
    · rw [ltGuard_inserts_not inserts]
      nofun
    · cases inserts.symm.trans held
    · rw [ltGuard_inserts_not inserts, inserts]
      simp
  | true =>
    have fresh : claim (request.popToken config).payloadClaims "jti" ∉ state.jtiCache := by
      simp only [ltGuard, Bool.and_eq_true, decide_eq_true_eq] at inserts
      exact inserts.2
    refine ⟨fun _ => inserts, fun _ => fresh, fun jti => ?_⟩
    rw [ltGuard_inserts inserts, inserts, addCheckJti, if_neg fresh, evict_room (room inserts)]
    simp only [mem_cons, true_and]
    rfl

/-- At most one long-term token is issued for a proof while the cache is not full. -/
theorem lt_not_replayed (config : Config) {history : ReplayCache.Calls State Request Str}
    {s : ReplayCache.Timed State Str}
    (run : Run ((ltGuard config).machine {}) (RoomLeft config) history s) :
    ReplayCache.NoReplay (SameProof config) history := by
  have window {now : Int} {request : Request} {state : State}
      (issued : ((ltGuard config).call now request state).2 = true) :
      (request.popToken config).checkIat (clockAt now) gap lifetime = true := by
    cases inserts : (ltGuard config).inserts request state with
    | false =>
      rw [ltGuard_inserts_not inserts] at issued
      cases issued
    | true =>
      rw [ltGuard_inserts inserts] at issued
      simp only [validate, Bool.and_eq_true] at issued
      exact issued.1.1.1
  refine ReplayCache.Guard.no_replay ?_ ?_ (fun a b same => same.1) ?_
    (fun _ t now request room called => ltGuard_keeps config now request _ (room now request called))
    run
  · intro jti
    exact not_mem_nil
  · intro jti gone state
    simp only [ltGuard, deleteJtiNow, mem_filter, decide_eq_true_eq, and_comm, ne_eq]
  · intro now past a b c d later earlier same
    obtain ⟨iat, readA, -, above⟩ := checkIat_window (by decide) (by decide) (window later)
    obtain ⟨iat', readB, below, -⟩ := checkIat_window (by decide) (by decide) (window earlier)
    rw [same.2, readB] at readA
    cases readA
    simp only [clockAt, ltGuard, gap, lifetime] at above below ⊢
    omega

def openConfig : Config := ⟨openCrypto, fun _ => some []⟩

def proofKey : Str := "\x7b\"kty\":\"RSA\",\"n\":\"AQ\",\"e\":\"AQ\"\x7d"

def proofHeader : Str := "\x7b\"alg\":\"RS256\",\"jwk\":" ++ proofKey ++ ['\x7d']

def proofClaims : List (Str × Str) := [("iat", "1000"), ("aud", "vissv2/agts"), ("jti", jti)]

def proofJwt : JsonWebToken := JsonWebToken.symmSign openCrypto []
    { header := proofHeader, payload := (Raw.obj ((proofClaims jti).map claimMember)).render }

def requestWith : Request where
  payload := { key := "Hw" }
  pop := (proofJwt jti).getFullToken
  uuid := []

def proofToken : PopToken where
  headerClaims := [("jwk", proofKey), ("alg", "RS256")]
  payloadClaims := (proofClaims jti).reverse
  jwk := { thumb := "Hw", type := "RSA", pubMod := "AQ", pubExp := "AQ" }
  jwt := proofJwt jti

theorem unmarshal_proof :
    unmarshal openCrypto (requestWith jti).pop {} = some (proofToken jti) := by
  have split : JsonWebToken.decodeFromFull (requestWith jti).pop = some (proofJwt jti) := by
    rw [JsonWebToken.decodeFromFull, requestWith, proofJwt, splitOn_fullToken]
    simp only [base64Decode_base64Encode _ (utf8Encode_bytes _), utf8Decode_utf8Encode]
    rfl
  have header : ((parseAll proofHeader).bind decodeRawMap).map headerClaimsOf =
      some [("jwk".toList, proofKey), ("alg".toList, "RS256".toList)] := by
    decide +kernel
  obtain ⟨headerMap, parsed, claims⟩ := map_eq_some_iff.mp header
  have key : JsonWebKey.unmarshall openCrypto proofKey {} = some (proofToken []).jwk := by
    decide +kernel
  have payload : (parseAll (proofJwt jti).payload).bind decodeRawMap =
      some ((proofClaims jti).map fun c => (c.1, .str (encodeString c.2))).reverse := by
    have text : (proofJwt jti).payload = (Raw.obj ((proofClaims jti).map claimMember)).render := rfl
    rw [text, parseAll_render _ (claims_nesting _)]
    simp only [bind_some, decodeRawMap, List.map_map, comp_def, claimMember, unquote_encodeString]
    rfl
  have first : (proofJwt jti).header = proofHeader := rfl
  simp only [unmarshal, split, first, parsed, claims, payload, bind_some]
  rw [if_neg (by decide)]
  show (JsonWebKey.unmarshall openCrypto proofKey {}).bind _ = _
  rw [key]
  simp [proofToken, rawMessageToClaim, unquote_encodeString, comp_def]

def sentAt : Int := 1000 * 10 ^ 9

theorem proofToken_signed : (proofToken jti).checkSignature openConfig.crypto = true := by
  have number : base64Decode "AQ" = some [1] := by decide +kernel
  have signature : base64Decode (proofJwt jti).encodedSignature = some _ :=
    base64Decode_base64Encode _ (openCrypto.hmac_bytes _ _)
  rw [checkSignature, if_pos (by rfl), checkRsa]
  simp only [proofToken, number, signature]
  rfl

theorem proofToken_valid :
    validate openConfig (clockAt sentAt) (requestWith jti).payload.key "vissv2/agts"
      (proofToken jti) = true := by
  rw [validate, proofToken_signed, Bool.and_true]
  rfl

variable {history : ReplayCache.Calls State Request Str} {s : ReplayCache.Timed State Str}

theorem request_issued {ok : ReplayCache.Calls State Request Str →
      Transition (ReplayCache.Timed State Str) (ReplayCache.Event Request) Bool → Prop}
    (run : Run ((ltGuard openConfig).machine {}) ok history s) (clock : s.clock = sentAt) {jti : Str}
    (allowed : ∀ after, ok history ⟨s, .call sentAt (requestWith jti), after, true⟩)
    (fresh : jti ∉ s.cache.jtiCache) : ∃ after, Run ((ltGuard openConfig).machine {}) ok
      (⟨s, .call sentAt (requestWith jti), after, true⟩ :: history) after ∧ after.clock = sentAt ∧
      after.cache = (addCheckJti jti s.cache).1 := by
  have token := @popToken_eq openConfig (requestWith jti) _ (unmarshal_proof jti)
  have inserts : (ltGuard openConfig).inserts (requestWith jti) s.cache = true := by
    simp only [ltGuard, token, proofToken_signed, Bool.and_eq_true, decide_eq_true_eq, and_true]
    exact ⟨isSome_iff_exists.mpr ⟨_, unmarshal_proof jti⟩, fresh⟩
  have called := @ltGuard_inserts openConfig sentAt (requestWith jti) s.cache inserts
  rw [token, proofToken_valid] at called
  obtain ⟨after, later, cache, longer⟩ := ReplayCache.Guard.run_call run (Int.le_of_eq clock)
    (requestWith jti) (by rw [called]; exact allowed)
  rw [called] at cache longer
  exact ⟨after, longer, later, cache⟩

theorem cache_filled (n : Nat) (room : n < maxJtiCacheSize) : ∃ history s t,
    Run ((ltGuard openConfig).machine {}) anyStep history s ∧ s.clock = sentAt ∧
      s.cache.jtiCache.length = n + 1 ∧ (∀ jti ∈ s.cache.jtiCache, jti.length ≤ n) ∧
      (∃ order, s.cache.jtiCacheOrder = [] :: order) ∧ t ∈ history ∧
      ReplayCache.Accepted t sentAt (requestWith []) := by
  induction n with
  | zero =>
    have start : Run ((ltGuard openConfig).machine {}) anyStep [] ⟨{}, [], sentAt⟩ :=
      .start _ ⟨rfl, rfl⟩
    obtain ⟨after, run, clock, cache⟩ := @request_issued _ _ _ start rfl [] (fun _ => trivial)
      not_mem_nil
    refine ⟨_, after, _, run, clock, ?_, ?_, ?_, mem_cons_self, rfl, rfl⟩
    all_goals rw [cache]
    · rfl
    · rintro jti (_ | ⟨_, ⟨⟩⟩)
      exact le_refl 0
    · exact ⟨[], rfl⟩
  | succ n ih =>
    obtain ⟨history, s, t, run, clock, size, short, ⟨order, first⟩, mem, accepted⟩ :=
      ih (lt_of_succ_lt room)
    have fresh : replicate (n + 1) 'a' ∉ s.cache.jtiCache := fun known => by
      have bound := short _ known
      rw [length_replicate] at bound
      omega
    obtain ⟨after, run, clock, cache⟩ := request_issued run clock (fun _ => trivial) fresh
    rw [addCheckJti, if_neg fresh, evict_room (by omega)] at cache
    refine ⟨_, after, t, run, clock, ?_, ?_, ?_, mem_cons_of_mem _ mem, accepted⟩
    all_goals rw [cache]
    · rw [length_cons, size]
    · refine forall_mem_cons.mpr ⟨?_, fun jti known => le_succ_of_le (short jti known)⟩
      rw [length_replicate]
    · rw [first]
      exact ⟨order ++ [_], rfl⟩

/-- After 10000 proofs the server forgets the first, which is accepted again. -/
theorem lt_token_replayed : ∃ history s, Run ((ltGuard openConfig).machine {}) anyStep history s ∧
      ¬ ReplayCache.NoReplay (SameProof openConfig) history := by
  obtain ⟨history, s, t, run, clock, size, short, ⟨order, first⟩, member, accepted⟩ :=
    cache_filled 9999 (by decide)
  obtain ⟨jti, fresh, other⟩ : ∃ jti, jti ∉ s.cache.jtiCache ∧ jti ≠ [] := by
    refine ⟨replicate 10000 'a', fun known => ?_, fun same => ?_⟩
    · have bound := short _ known
      rw [length_replicate] at bound
      omega
    · have size := congrArg length same
      rw [length_replicate] at size
      cases size
  obtain ⟨full, run, clock, cache⟩ := request_issued run clock (fun _ => trivial) fresh
  have forgotten : [] ∉ full.cache.jtiCache := by
    rw [cache, addCheckJti, if_neg fresh, evict, first]
    simp only
    rw [if_pos (by rw [size]; decide), mem_cons, mem_filter]
    rintro (same | ⟨-, kept⟩)
    · exact other same.symm
    · exact of_decide_eq_true kept rfl
  obtain ⟨after, run, -, -⟩ := request_issued run clock (fun _ => trivial) forgotten
  refine ⟨_, after, run, fun apart => ?_⟩
  exact (pairwise_cons.mp apart).1 t (mem_cons_of_mem _ member) _ _ _ _ ⟨rfl, rfl⟩ accepted
    ⟨rfl, rfl⟩

theorem lt_not_replayed_twice : ∃ history s,
    Run ((ltGuard openConfig).machine {}) (RoomLeft openConfig) history s ∧
      history.map Transition.event = replicate 2 (.call sentAt (requestWith [])) ∧
      history.map Transition.output = [false, true] ∧
      ReplayCache.NoReplay (SameProof openConfig) history := by
  have start : Run ((ltGuard openConfig).machine {}) (RoomLeft openConfig) [] ⟨{}, [], sentAt⟩ :=
    .start _ ⟨rfl, rfl⟩
  have empty : ([] : List Str).length < maxJtiCacheSize := by decide
  rcases @request_issued _ _ _ start rfl [] (fun _ _ _ _ _ => empty) not_mem_nil with
    ⟨after, run, clock, cache⟩
  have known : (ltGuard openConfig).inserts (requestWith []) after.cache = false := by
    rw [cache]
    simp only [ltGuard, @popToken_eq openConfig (requestWith []) _ (unmarshal_proof [])]
    exact Bool.and_false _
  have called := @ltGuard_inserts_not openConfig sentAt (requestWith []) after.cache known
  rcases ReplayCache.Guard.run_call run (Int.le_of_eq clock) (requestWith [])
    (fun _ _ _ _ _ => by rw [cache]; decide) with ⟨last, -, -, longer⟩
  rw [called] at longer
  exact ⟨_, last, longer, rfl, rfl, lt_not_replayed openConfig longer⟩

/-! ### The cache as it is used -/

/-- A call for a proof id, or a timer that fires for one. -/
inductive CacheEvent where
  | add (jti : Str)
  | fires (jti : Str)

/-- The cache after some events, the latest first. -/
def cacheAfter : List CacheEvent → State
  | [] => {}
  | .add jti :: earlier => (addCheckJti jti (cacheAfter earlier)).1
  | .fires jti :: earlier => deleteJtiNow jti (cacheAfter earlier)

structure Consistent (state : State) : Prop where
  distinct : state.jtiCacheOrder.Nodup
  same : state.jtiCache.Perm state.jtiCacheOrder
  bounded : state.jtiCache.length ≤ maxJtiCacheSize

theorem filter_perm_erase {cache order : List Str} (distinct : order.Nodup)
    (same : cache.Perm order) (jti : Str) : (cache.filter (· ≠ jti)).Perm (order.erase jti) := by
  have kept := (same.nodup_iff.mpr distinct).filter (· ≠ jti)
  apply (perm_ext_iff_of_nodup kept (distinct.erase jti)).mpr
  intro other
  rw [mem_filter, distinct.mem_erase_iff, same.mem_iff, and_comm, decide_eq_true_eq]

theorem Consistent.delete (consistent : Consistent state) (jti : Str) :
    Consistent (deleteJtiNow jti state) where
  distinct := consistent.distinct.erase jti
  same := filter_perm_erase consistent.distinct consistent.same jti
  bounded := le_trans (length_filter_le _ _) consistent.bounded

theorem Consistent.evicted (consistent : Consistent state) : Consistent (evict state) ∧
      (evict state).jtiCache.length < maxJtiCacheSize ∧
      ∀ jti ∈ (evict state).jtiCache, jti ∈ state.jtiCache := by
  have distinct := consistent.distinct
  have same := consistent.same
  have bounded := consistent.bounded
  unfold evict
  split
  · next oldest order listed =>
    rw [listed] at distinct same
    have rest := filter_perm_erase distinct same oldest
    rw [erase_cons_head] at rest
    have size := rest.length_eq
    have one := same.length_eq
    rw [length_cons] at one
    split_ifs with full
    · have fewer : (state.jtiCache.filter (· ≠ oldest)).length < maxJtiCacheSize := by omega
      exact ⟨⟨distinct.of_cons, rest, le_of_lt fewer⟩, fewer, fun _ => mem_of_mem_filter⟩
    · exact ⟨consistent, not_le.mp full, fun _ => id⟩
  · next listed =>
    have empty := same.length_eq
    rw [listed, length_nil] at empty
    exact ⟨consistent, by rw [empty]; decide, fun _ => id⟩

theorem Consistent.add (consistent : Consistent state) (jti : Str) :
    Consistent (addCheckJti jti state).1 := by
  unfold addCheckJti
  split_ifs with known
  · exact consistent
  · obtain ⟨⟨distinct, same, -⟩, room, kept⟩ := consistent.evicted
    have fresh : jti ∉ (evict state).jtiCacheOrder :=
      fun listed => known (kept jti (same.mem_iff.mpr listed))
    refine ⟨?_, ?_, room⟩
    · exact distinct.append (nodup_singleton jti) (by simpa using fresh)
    · exact (same.cons jti).trans (perm_append_singleton jti _).symm

/-- The order always lists the ids of the cache, each once. -/
theorem jti_cache_consistent (events : List CacheEvent) (jti : Str) :
    Consistent (cacheAfter events) ∧
      ((addCheckJti jti (cacheAfter events)).2 = true ↔ jti ∉ (cacheAfter events).jtiCache) := by
  constructor
  · induction events with
    | nil => exact ⟨nodup_nil, .nil, by decide⟩
    | cons event events ih =>
      cases event with
      | add jti => exact ih.add jti
      | fires jti => exact ih.delete jti
  · unfold addCheckJti
    split_ifs with known
    · exact iff_of_false nofun fun fresh => fresh known
    · exact iff_of_true rfl known

/-! ### The claims of a token -/

/-- The claims that are not in the header are read back from the full token. -/
def ClaimsKept (crypto : Crypto) (header : Str) (signature : Bytes) (claims : List (Str × Str)) :
    Prop :=
  (∃ m, unmarshalMap (addClaims claims { header }).payload = some m ∧
    ∀ name, m.lookup name ≠ none ↔ name ∈ claims.map Prod.fst) ∧
  ∀ c ∈ claims, lookupClaim crypto (base64Encode (utf8Encode header)) c.1 = none →
    extractFromToken crypto { (addClaims claims { header }).encode with
      encodedSignature := base64Encode signature }.getFullToken c.1 = c.2

def signer (crypto : Crypto) (signature : Bytes) (bytes : AreBytes signature) : Crypto :=
  { crypto with hmac := fun _ _ => signature, hmac_bytes := fun _ _ => bytes }

/-- The claims are kept where no value looks like JSON. -/
theorem claims_kept_of_plain (crypto : Crypto) (header : Str) (signature : Bytes)
    (bytes : AreBytes signature) (claims : List (Str × Str)) (some_ : claims ≠ [])
    (distinct : Distinct claims) (named : ∀ c ∈ claims, c.1 ≠ [] ∧ c.2 ≠ [])
    (plain : ∀ c ∈ claims, startsJson c.2 = false) : ClaimsKept crypto header signature claims := by
  have kept : keptClaims claims = claims :=
    filter_eq_self.mpr fun c member => decide_eq_true (named c member).2
  have payload : (addClaims claims { header }).payload =
      (Raw.obj (claims.map claimMember)).render := by
    obtain ⟨first, rest, rfl⟩ := exists_cons_of_ne_nil some_
    rw [addClaims_payload first rest (named first mem_cons_self).2
      (fun c member => ⟨(named c member).1, plain c member⟩) _ rfl, kept]
  refine ⟨⟨_, by rw [payload, unmarshalMap_claims], ?_⟩, ?_⟩
  · intro name
    rw [lookup_claims claims distinct, ne_eq, map_eq_none_iff, lookup_eq_none_iff]
    simp
  · intro c member absent
    have read := extractFromToken_signed (signer crypto signature bytes) []
      (addClaims claims { header }) c.1
    have texts := lookupClaim_claims (signer crypto signature bytes) claims distinct c.1
    rw [addClaims_header, payload] at read
    rw [kept, (lookup_eq_some_iff claims distinct _ _).mpr member] at texts
    exact (read absent).trans texts

theorem claims_kept_of_plain_two :
    ClaimsKept openCrypto [] [] [("vin", "V1"), ("clx", "Owner+OEM+Cloud")] := by
  apply claims_kept_of_plain openCrypto [] [] (fun _ member => by cases member) _ (by decide)
  · decide +kernel
  · decide +kernel
  · decide +kernel

def forgedClaims : List (Str × Str) :=
  [("vin", "\x7b\x7d,\"pub\":\"K\""), ("clx", "Owner+OEM+Cloud")]

/-- The vehicle id adds a claim that the server did not make. -/
theorem vin_adds_claim : (addClaims forgedClaims {}).payload =
      "\x7b\"vin\":\x7b\x7d,\"pub\":\"K\",\"clx\":\"Owner+OEM+Cloud\"\x7d" ∧
    ¬ ClaimsKept openCrypto [] [] forgedClaims := by
  refine ⟨by decide +kernel, ?_⟩
  rintro ⟨⟨m, decoded, names⟩, -⟩
  have added : (unmarshalMap (addClaims forgedClaims {}).payload).map
      (fun m => (m.lookup "pub".toList).isSome) = some true := by
    decide +kernel
  have absent : "pub".toList ∉ forgedClaims.map Prod.fst := by decide +kernel
  rw [decoded, map_some, some.injEq, isSome_iff_ne_none] at added
  exact absent ((names _).mp added)

end Vissr.AgtServer
