import Vissr.AtServer.DirectIssue

/-! Which sessions and tokens the access token server keeps, and under which gating ids. -/

namespace Vissr.AtServer

open Json Option Function Slots

def gatingIds (state : State) : Fin listSize ⊕ Fin listSize → Int :=
  Sum.elim (fun i => (state.pendingList.get i).gatingId) fun i => (state.activeList.get i).gatingId

def DistinctIds {ι : Type} (ids : ι → Int) : Prop := ∀ a b, ids a ≠ -1 → ids a = ids b → a = b

variable {ι : Type} [DecidableEq ι] {ids : ι → Int} {place : ι} {id : Int}

theorem DistinctIds.clear (distinct : DistinctIds ids) : DistinctIds (update ids place (-1)) := by
  intro a b occupied same
  by_cases here : a = place
  · rw [here, update_self] at occupied
    exact absurd rfl occupied
  · rw [update_of_ne here] at occupied same
    by_cases there : b = place
    · rw [there, update_self] at same
      exact absurd same occupied
    · rw [update_of_ne there] at same
      exact distinct a b occupied same

theorem DistinctIds.fill_iff (distinct : DistinctIds ids) (free : ids place = -1) (used : id ≠ -1) :
    DistinctIds (update ids place id) ↔ ∀ other, ids other ≠ id := by
  constructor
  · intro kept other same
    have apart : other ≠ place := fun here => used (same ▸ here ▸ free)
    apply apart
    apply kept
    · rw [update_of_ne apart, same]
      exact used
    · rw [update_of_ne apart, update_self, same]
  · intro unused a b occupied same
    by_cases here : a = place
    · rw [here, update_self] at same
      by_contra apart
      rw [update_of_ne (Ne.symm (here ▸ apart))] at same
      exact unused b same.symm
    · rw [update_of_ne here] at occupied same
      by_cases there : b = place
      · rw [there, update_self] at same
        exact absurd same (unused a)
      · rw [update_of_ne there] at same
        exact distinct a b occupied same

variable (config : Config) {state : State}

theorem gatingIds_pending (i : Fin listSize) (elem : PendingListElem) :
    gatingIds { state with pendingList := state.pendingList.set i elem } =
      update (gatingIds state) (.inl i) elem.gatingId := by
  rw [gatingIds, map_get_set, Sum.elim_update_left]
  rfl

theorem gatingIds_active (i : Fin listSize) (elem : ActiveListElem) :
    gatingIds { state with activeList := state.activeList.set i elem } =
      update (gatingIds state) (.inr i) elem.gatingId := by
  rw [gatingIds, map_get_set, Sum.elim_update_right]
  rfl

theorem gatingIds_congr {before after : State} (pending : after.pendingList = before.pendingList)
    (active : after.activeList = before.activeList) : gatingIds after = gatingIds before := by
  rw [gatingIds, gatingIds, pending, active]

theorem writeToPendingList_ids (id : Int) (payload : AtGenPayload) (state : State) :
    (∃ i, (state.pendingList.get i).gatingId = -1 ∧
      gatingIds (writeToPendingList config id payload state) =
        update (gatingIds state) (.inl i) id) ∨ (∀ i, (state.pendingList.get i).gatingId ≠ -1) ∧
      writeToPendingList config id payload state = state := by
  unfold writeToPendingList
  split
  · next i found => exact .inl ⟨i, of_first found, gatingIds_pending _ _⟩
  · next full => exact .inr ⟨not_of_first full, rfl⟩

theorem writeToActiveList_ids (id : Int) (token : Str) (state : State) :
    (∃ i, (state.activeList.get i).gatingId = -1 ∧
      gatingIds (writeToActiveList config id token state) = update (gatingIds state) (.inr i) id) ∨
    (∀ i, (state.activeList.get i).gatingId ≠ -1) ∧
      writeToActiveList config id token state = state := by
  unfold writeToActiveList
  split
  · next i found => exact .inl ⟨i, of_first found, gatingIds_active _ _⟩
  · next full => exact .inr ⟨not_of_first full, rfl⟩

theorem DistinctIds.collect {i : Fin listSize} (token : Str) (distinct : DistinctIds (gatingIds state)) :
    DistinctIds (gatingIds (writeToActiveList config (state.pendingList.get i).gatingId token
      (removeFromPendingList i state))) := by
  have removed : gatingIds (removeFromPendingList i state) =
      update (gatingIds state) (.inl i) (-1) := gatingIds_pending _ _
  rcases writeToActiveList_ids config (state.pendingList.get i).gatingId token
    (removeFromPendingList i state) with ⟨j, free, written⟩ | ⟨-, unchanged⟩
  · rw [written]
    have cleared : DistinctIds (gatingIds (removeFromPendingList i state)) :=
      removed ▸ distinct.clear
    have unfilled : gatingIds (removeFromPendingList i state) (.inr j) = -1 := free
    by_cases used : (state.pendingList.get i).gatingId = -1
    · rw [used]
      exact cleared.clear
    · refine (cleared.fill_iff unfilled used).mpr ?_
      intro other same
      rw [removed] at same
      by_cases here : other = .inl i
      · rw [here, update_self] at same
        exact used same.symm
      · rw [update_of_ne here] at same
        exact here (distinct other (.inl i) (same ▸ used) same)
  · rw [unchanged, removed]
    exact distinct.clear

def Stores (input : Input) (state : State) : Prop :=
  ∃ request uuid payload requiresConsent, input.event = .client request uuid ∧
    contains request "at-request" = true ∧ decodeAtGenPayload config request = .ok payload ∧
    (validateRequest config input.now payload state).2 = none ∧
    checkifConsent config.himForest config.pList payload.purpose = some requiresConsent ∧
    if requiresConsent then
      state.ecfAvailable = true ∧ ∃ i, (state.pendingList.get i).gatingId = -1
    else ∃ i, (state.activeList.get i).gatingId = -1

def NextIdUnused (input : Input) (state : State) : Prop :=
  Stores config input state → ∀ place, gatingIds state place ≠ (state.gatingId + 1) % 9999

variable {config} {input : Input} {after : State} {output : Output}

theorem accessTokenResponse_granted {now : Time} {request : Str} (uuid : Option Str)
    {payload : AtGenPayload} {requiresConsent : Bool}
    (decoded : decodeAtGenPayload config request = .ok payload)
    (valid : (validateRequest config now payload state).2 = none)
    (checked : checkifConsent config.himForest config.pList payload.purpose = some requiresConsent) :
    ∃ cache, accessTokenResponse config now uuid request state =
      some (grant config now uuid payload requiresConsent
        (newGatingId { state with jtiCache := cache })) := by
  obtain ⟨cache, same⟩ := validateRequest_state config now payload state
  refine ⟨cache, ?_⟩
  have validated : validateRequest config now payload state =
      ({ state with jtiCache := cache }, none) := Prod.ext same valid
  simp only [accessTokenResponse, decoded, validated, checked, map_some]

theorem step_stores (stores : Stores config input state)
    (taken : step config state input = some (after, output)) :
    ∃ place, gatingIds state place = -1 ∧ gatingIds after =
      update (gatingIds state) place ((state.gatingId + 1) % 9999) := by
  obtain ⟨request, uuid, payload, requiresConsent, received, asked, decoded, valid, checked, room⟩ :=
    stores
  obtain ⟨cache, answered⟩ := accessTokenResponse_granted uuid decoded valid checked
  rw [step, received] at taken
  simp only [generateClientResponse, asked, if_true, answered, map_some, some.injEq,
    Prod.mk.injEq] at taken
  obtain ⟨rfl, -⟩ := taken
  cases requiresConsent with
  | true =>
    obtain ⟨available, i, free⟩ := room
    have reached : (newGatingId { state with jtiCache := cache }).ecfAvailable = true := available
    rw [grant, if_pos rfl, if_pos reached]
    rcases writeToPendingList_ids config _ payload (newGatingId { state with jtiCache := cache })
      with ⟨j, empty, written⟩ | ⟨full, -⟩
    · exact ⟨.inl j, empty, written⟩
    · exact absurd free (full i)
  | false =>
    obtain ⟨i, free⟩ := room
    rw [grant, if_neg Bool.false_ne_true]
    rcases writeToActiveList_ids config _ (generateAt config input.now uuid payload)
      (newGatingId { state with jtiCache := cache }) with ⟨j, empty, written⟩ | ⟨full, -⟩
    · exact ⟨.inr j, empty, written⟩
    · exact absurd free (full i)

theorem step_stores_not (stores : ¬ Stores config input state)
    (taken : step config state input = some (after, output))
    (distinct : DistinctIds (gatingIds state)) : DistinctIds (gatingIds after) := by
  cases step_effect taken with
  | idle pending active =>
    rw [gatingIds_congr pending active]
    exact distinct
  | @ask _ _ payload cache _ received asked decoded valid checked available =>
    rcases writeToPendingList_ids config _ payload (newGatingId { state with jtiCache := cache })
      with ⟨i, free, -⟩ | ⟨-, unchanged⟩
    · exact absurd ⟨_, _, _, _, received, asked, decoded, valid, checked, available, i, free⟩ stores
    · exact unchanged.symm ▸ distinct
  | @issue _ uuid payload cache received asked decoded valid checked =>
    rcases writeToActiveList_ids config _ (generateAt config input.now uuid payload)
      (newGatingId { state with jtiCache := cache }) with ⟨i, free, -⟩ | ⟨-, unchanged⟩
    · exact absurd ⟨_, _, _, _, received, asked, decoded, valid, checked, i, free⟩ stores
    · exact unchanged.symm ▸ distinct
  | collect received inquiry named =>
    rw [← named]
    exact distinct.collect config _
  | remove =>
    rw [removeFromPendingList, gatingIds_pending]
    exact distinct.clear
  | @reply i _ _ _ _ received accepted named =>
    rw [gatingIds_pending]
    exact (update_eq_self (Sum.inl i) (gatingIds state)).symm ▸ distinct
  | cancel | expire =>
    rw [removeFromActiveList, gatingIds_active]
    exact distinct.clear

/-- The ids of the two lists are distinct just in case none in use is given. -/
theorem gating_ids_unique_iff (config : Config) {history : ServerHistory}
    (run : Run (machine config) anyStep history state) :
    (∀ t ∈ history, DistinctIds (gatingIds t.after)) ↔
      ∀ t ∈ history, NextIdUnused config t.event t.before := by
  refine run.forall_iff (fun state => DistinctIds (gatingIds state)) ?_ ?_
  · rintro s ⟨pending, active, -⟩ a b occupied
    exfalso
    apply occupied
    cases a with
    | inl => rw [gatingIds, Sum.elim_inl, pending, get_replicate]
    | inr => rw [gatingIds, Sum.elim_inr, active, get_replicate]
  · intro t distinct taken
    refine ⟨?_, id⟩
    by_cases stores : Stores config t.event t.before
    · obtain ⟨place, free, filled⟩ := step_stores stores taken
      have counted : 0 ≤ (t.before.gatingId + 1) % 9999 := Int.emod_nonneg _ (by decide)
      rw [filled, distinct.fill_iff free (by omega), NextIdUnused, forall_prop_of_true stores]
    · exact iff_of_true (step_stores_not stores taken distinct) fun stored => absurd stored stores

theorem gating_ids_unique_speed : ∃ history state,
    Run (machine sampleConfig) anyStep history state ∧
      ((∃ a, gatingIds state a = 667) ∧ ∃ b, gatingIds state b = 668) ∧
      ∀ t ∈ history, DistinctIds (gatingIds t.after) := by
  rcases Run.of_exec (machine sampleConfig) sampleState sampleState_initial
    [requestSpeed, requestSpeed]
    (fun history state => ((∃ a, gatingIds state a = 667) ∧ ∃ b, gatingIds state b = 668) ∧
      ∀ t ∈ history, ∀ place, gatingIds t.before place ≠ (t.before.gatingId + 1) % 9999)
    (by decide +kernel) with ⟨history, state, run, ids, unused⟩
  exact ⟨history, state, run, ids,
    (gating_ids_unique_iff sampleConfig run).mpr fun t mem _ => unused t mem⟩

theorem validateRequest_unproven {now : Time} {payload : AtGenPayload} (state other : State)
    (unproven : claim payload.agt.payloadClaims "pub" = []) :
    validateRequest config now payload state =
      (state, (validateRequest config now payload other).2) := by
  simp only [validateRequest, checkPop, unproven, if_true]
  split
  · rfl
  · split
    · rfl
    · rfl
    · split
      · rfl
      · split <;> rfl

def requestPosition : Input := inquiry 2000 (atRequestFor "position")

theorem requestPosition_refused (state : State) (alone : state.ecfAvailable = false) :
    (machine sampleConfig).step state requestPosition =
      some (newGatingId state, .atRequest .noConsentFramework none) := by
  have accepted : acceptsRequest sampleConfig (second 2000) (atRequestFor "position") "position"
      sampleState = true := by
    decide +kernel
  obtain ⟨payload, decoded, purpose, valid⟩ := acceptsRequest_payload accepted
  have unproven : claim payload.agt.payloadClaims "pub" = [] := by
    have known : (decodeAtGenPayload sampleConfig (atRequestFor "position")).toOption.map
        (fun payload => claim payload.agt.payloadClaims "pub") = some [] := by
      decide +kernel
    rw [decoded] at known
    exact some.inj known
  have validated := @validateRequest_unproven sampleConfig (second 2000) payload state sampleState
    unproven
  rw [valid] at validated
  have needed : checkifConsent sampleConfig.himForest sampleConfig.pList payload.purpose =
      some true := by
    rw [purpose]
    decide +kernel
  have request : contains (atRequestFor "position") "at-request" = true := by decide +kernel
  simp only [machine, step, requestPosition, inquiry, generateClientResponse, request, if_true,
    accessTokenResponse, decoded, validated, needed, map_some, grant]
  rw [if_neg (by simp [newGatingId, alone])]

theorem requestPosition_turns {history : ServerHistory}
    (run : Run (machine sampleConfig) anyStep history state) (alone : state.ecfAvailable = false) :
    ∃ longer, Run (machine sampleConfig) anyStep longer (newGatingId state) := by
  exact ⟨_, .step (t := ⟨state, requestPosition, newGatingId state, _⟩) run
    (requestPosition_refused state alone) trivial⟩

theorem requestPosition_repeated {history : ServerHistory} (n : Nat)
    (run : Run (machine sampleConfig) anyStep history state) (alone : state.ecfAvailable = false)
    (inRange : 0 ≤ state.gatingId ∧ state.gatingId < 9999) :
    ∃ longer, Run (machine sampleConfig) anyStep longer
      { state with gatingId := (state.gatingId + n) % 9999 } := by
  induction n with
  | zero =>
    refine ⟨history, ?_⟩
    rw [Int.natCast_zero, Int.add_zero, Int.emod_eq_of_lt inRange.1 inRange.2]
    exact run
  | succ n ih =>
    obtain ⟨longer, run⟩ := ih
    obtain ⟨longer, turned⟩ := requestPosition_turns run alone
    have count : ((state.gatingId + n) % 9999 + 1) % 9999 =
        (state.gatingId + (n + 1 : Nat)) % 9999 := by
      rw [Int.emod_add_emod, Int.natCast_succ, Int.add_assoc]
    rw [newGatingId, count] at turned
    exact ⟨_, turned⟩

/-- The counter goes round to the id of another token. -/
theorem gating_id_reused : ∃ history state, Run (machine sampleConfig) anyStep history state ∧
    ¬ ∀ t ∈ history, DistinctIds (gatingIds t.after) := by
  have start : Run (machine sampleConfig) anyStep [] sampleState :=
    .start sampleState sampleState_initial
  have first := start.fire requestSpeed requestSpeed_enabled trivial
  obtain ⟨longer, round⟩ := requestPosition_repeated 9998 first (by decide +kernel)
    (by decide +kernel)
  have second := round.fire requestSpeed (by decide +kernel) trivial
  refine ⟨_, _, second, fun distinct => ?_⟩
  have same := distinct _ List.mem_cons_self (.inr ⟨0, by decide⟩) (.inr ⟨1, by decide⟩)
    (by decide +kernel) (by decide +kernel)
  exact absurd same (by decide)

section HandedOut

def Output.session : Output → Option Int
  | .atRequest (.pending sessionId) _ => some sessionId
  | .atInquiry (.notSet sessionId) => some sessionId
  | _ => none

variable (list : Slots ActiveListElem listSize)

def HoldsToken (token : Str) : Prop := ∃ i, (list.get i).gatingId ≠ -1 ∧ (list.get i).atoken = token

def HoldsSession (list : Slots PendingListElem listSize) (id : Int) : Prop :=
  id ≠ -1 ∧ ∃ i, (list.get i).gatingId = id

/-- What an answer hands out is on the lists afterwards. -/
def Registered (output : Output) (after : State) : Prop :=
  (∀ token, output.issued = some token → HoldsToken after.activeList token) ∧
    ∀ id, output.session = some id → HoldsSession after.pendingList id

/-- A token can be registered under the id, or is on the list already. -/
def TokenFits (id : Int) (token : Str) : Prop :=
  HoldsToken list token ∨ id ≠ -1 ∧ ∃ i, (list.get i).gatingId = -1

variable (config : Config) (now : Time) (uuid : Option Str) (request : Str) (state : State)

def RequestFits : Prop := ∀ payload, decodeAtGenPayload config request = .ok payload →
    (validateRequest config now payload state).2 = none →
    (checkifConsent config.himForest config.pList payload.purpose = some true →
      state.ecfAvailable = true → ∃ i, (state.pendingList.get i).gatingId = -1 ∨
        (state.pendingList.get i).gatingId = (state.gatingId + 1) % 9999) ∧
    (checkifConsent config.himForest config.pList payload.purpose = some false →
      TokenFits state.activeList ((state.gatingId + 1) % 9999) (generateAt config now uuid payload))

/-- The session of an inquiry marks no free slot, and there is room. -/
def InquiryFits : Prop :=
  ∀ i, state.pendingList.first (fun elem => elem.gatingId = extractGatingId request) = some i →
    (state.pendingList.get i).consent ≠ "NO" →
    if (state.pendingList.get i).consent = "NOT_SET" then extractGatingId request ≠ -1
    else TokenFits state.activeList (extractGatingId request)
      (generateAt config now uuid (state.pendingList.get i).atGenData)

variable {config now uuid request state}

theorem holdsToken_write (id : Int) (token : Str) (state : State) :
    HoldsToken (writeToActiveList config id token state).activeList token ↔
      TokenFits state.activeList id token := by
  unfold writeToActiveList
  split
  · next i found =>
    have free : (state.activeList.get i).gatingId = -1 := of_first found
    constructor
    · rintro ⟨j, occupied, same⟩
      rw [get_set] at occupied same
      split_ifs at occupied same with here
      · exact .inr ⟨occupied, i, free⟩
      · exact .inl ⟨j, occupied, same⟩
    · rintro (⟨j, occupied, same⟩ | ⟨used, -⟩)
      · have apart : i ≠ j := fun here => occupied (here ▸ free)
        refine ⟨j, ?_⟩
        rw [get_set_of_ne _ _ _ _ apart]
        exact ⟨occupied, same⟩
      · refine ⟨i, ?_⟩
        rw [get_set_self]
        exact ⟨used, rfl⟩
  · next full =>
    refine ⟨.inl, ?_⟩
    rintro (held | ⟨-, i, free⟩)
    · exact held
    · exact absurd free (not_of_first full i)

theorem holdsSession_write (used : id ≠ -1) (payload : AtGenPayload) (state : State) :
    HoldsSession (writeToPendingList config id payload state).pendingList id ↔
      ∃ i, (state.pendingList.get i).gatingId = -1 ∨ (state.pendingList.get i).gatingId = id := by
  unfold writeToPendingList HoldsSession
  split
  · next i found =>
    exact iff_of_true ⟨used, i, by rw [get_set_self]⟩ ⟨i, .inl (of_first found)⟩
  · next full =>
    have occupied := not_of_first full
    simp [used, occupied]

theorem request_registered_iff :
    (∀ after response ask, accessTokenResponse config now uuid request state =
      some (after, response, ask) → Registered (.atRequest response ask) after) ↔
      RequestFits config now uuid request state := by
  have used : (state.gatingId + 1) % 9999 ≠ -1 := by
    have counted : 0 ≤ (state.gatingId + 1) % 9999 := Int.emod_nonneg _ (by decide)
    omega
  constructor
  · intro registered payload decoded valid
    constructor
    · intro needed available
      obtain ⟨cache, answered⟩ := accessTokenResponse_granted uuid decoded valid needed
      have reached : (newGatingId { state with jtiCache := cache }).ecfAvailable = true := available
      rw [grant, if_pos rfl, if_pos reached] at answered
      have held := (registered _ _ _ answered).2 _ rfl
      exact (holdsSession_write used payload (newGatingId { state with jtiCache := cache })).mp held
    · intro needless
      obtain ⟨cache, answered⟩ := accessTokenResponse_granted uuid decoded valid needless
      rw [grant, if_neg Bool.false_ne_true] at answered
      have held := (registered _ _ _ answered).1 _ rfl
      exact (holdsToken_write _ _ (newGatingId { state with jtiCache := cache })).mp held
  · intro fits after response ask answered
    obtain ⟨-, refused, -⟩ | ⟨payload, requiresConsent, cache, decoded, valid, checked, granted⟩ :=
      accessTokenResponse_cases config answered
    · constructor
      · intro token issued
        cases response <;> first | exact refused.elim | cases issued
      · intro id session
        cases response <;> first | exact refused.elim | cases session
    · obtain ⟨pending, direct⟩ := fits payload decoded valid
      unfold grant at granted
      split_ifs at granted with requires available
      · cases granted
        subst requires
        refine ⟨nofun, ?_⟩
        rintro id ⟨⟩
        exact (holdsSession_write used payload (newGatingId { state with jtiCache := cache })).mpr
          (pending checked available)
      · cases granted
        exact ⟨nofun, nofun⟩
      · cases granted
        rw [Bool.eq_false_iff.mpr requires] at checked
        refine ⟨?_, nofun⟩
        rintro token ⟨⟩
        exact (holdsToken_write _ _ (newGatingId { state with jtiCache := cache })).mpr
          (direct checked)

theorem inquiry_registered_iff :
    Registered (.atInquiry (consentInquiryResponse config now uuid request state).2)
      (consentInquiryResponse config now uuid request state).1 ↔
      InquiryFits config now uuid request state := by
  unfold consentInquiryResponse InquiryFits
  simp only
  split
  · next missed => exact iff_of_true ⟨nofun, nofun⟩ (by rw [missed]; nofun)
  · next i found =>
    have named : (state.pendingList.get i).gatingId = extractGatingId request := of_first found
    simp only [found, some.injEq, forall_eq']
    split
    · next notSet =>
      constructor
      · rintro ⟨-, held⟩ -
        exact (held _ rfl).1
      · intro fits
        refine ⟨nofun, ?_⟩
        rintro id ⟨⟩
        exact ⟨fits (by rw [notSet]; decide), i, named⟩
    · next answered =>
      split
      · next refused => exact iff_of_true ⟨nofun, nofun⟩ fun agreed => absurd refused agreed
      · next agreed =>
        rw [forall_prop_of_true agreed]
        refine Iff.trans ?_ (@holdsToken_write config _ _ (removeFromPendingList i state))
        constructor
        · rintro ⟨held, -⟩
          exact held _ rfl
        · intro held
          refine ⟨?_, nofun⟩
          rintro token ⟨⟩
          exact held

/-- What is handed out is on the lists just in case there is room. -/
theorem handed_out_registered_iff (config : Config) (now : Time) (uuid : Option Str) (request : Str)
    (state : State) : ((∀ after response ask, accessTokenResponse config now uuid request state =
        some (after, response, ask) → Registered (.atRequest response ask) after) ↔
      RequestFits config now uuid request state) ∧
    (Registered (.atInquiry (consentInquiryResponse config now uuid request state).2)
        (consentInquiryResponse config now uuid request state).1 ↔
      InquiryFits config now uuid request state) :=
  ⟨request_registered_iff, inquiry_registered_iff⟩

/-- Without a session id an inquiry is told to come back for -1. -/
theorem session_not_kept : Run (machine sampleConfig) anyStep [] sampleState ∧
    (consentInquiryResponse sampleConfig (second 2000) none "\x7b\"action\":\"at-inquiry\"\x7d"
      sampleState).2 = .notSet (-1) ∧ ¬ Registered (.atInquiry (.notSet (-1))) sampleState :=
  ⟨.start sampleState sampleState_initial, by decide +kernel,
    fun registered => (registered.2 (-1) rfl).1 rfl⟩

end HandedOut

end Vissr.AtServer
