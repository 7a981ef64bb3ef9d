import Vissr.AtServer.Server

/-! What a step of the access token server does to its two lists. -/

namespace Vissr.AtServer

open Json Option Bool Slots

variable (config : Config)

def activeEntry (config : Config) (gatingId : Int) (token : Str) : ActiveListElem :=
  { gatingId
    atoken := token
    atokenHandle := extractSignature token
    atExpiryTime := Token.extractFromToken config.crypto token "exp" }

def acceptedCancel (message : Str) : Option (Int × Str) :=
  if contains message "status" ∨ contains message "consent-reply" then none
  else if contains message "consent-cancel" then (parseConsentCancel config message).toOption
  else none

inductive ActiveSlot (config : Config) (input : Input) (output : Output)
    (before after : ActiveListElem) : Prop
  | same (unchanged : after = before)
  | write (gatingId : Int) (token : Str) (free : before.gatingId = -1)
      (issued : output.issued = some token) (written : after = activeEntry config gatingId token)
  | cancel (message : Str) (gatingId : Int) (text : Str) (received : input.event = .ecf message)
      (accepted : acceptedCancel config message = some (gatingId, text))
      (named : before.gatingId = gatingId) (removed : after = { before with gatingId := -1 })
  | expire (seconds : Int) (ticked : input.event = .expiryTicker)
      (time : atoi before.atExpiryTime = some seconds) (past : input.now.after seconds = true)
      (removed : after = { before with gatingId := -1 })

def acceptedReply (message : Str) : Option (Int × Str) :=
  if contains message "status" then none
  else if contains message "consent-reply" then (parseConsentReply config message).toOption
  else none

inductive PendingSlot (config : Config) (input : Input) (output : Output) (state : State)
    (before after : PendingListElem) : Prop
  | same (unchanged : after = before)
  | put (gatingId : Int) (request : Str) (uuid : Option Str) (payload : AtGenPayload)
      (ask : Option Str) (received : input.event = .client request uuid)
      (decoded : decodeAtGenPayload config request = .ok payload)
      (valid : (validateRequest config input.now payload state).2 = none)
      (needed : checkifConsent config.himForest config.pList payload.purpose = some true)
      (answered : output = .atRequest (.pending gatingId) ask) (free : before.gatingId = -1)
      (written : after = { before with
          gatingId
          atGenData := payload
          agtExpiryTime := Token.extractFromToken config.crypto payload.token "exp" })
  | reply (message consent : Str) (received : input.event = .ecf message)
      (accepted : acceptedReply config message = some (before.gatingId, consent))
      (stored : after = { before with consent })
  | remove (removed : after = { before with gatingId := -1, consent := "NOT_SET" })

theorem writeToActiveList_pending (gatingId : Int) (token : Str) (state : State) :
    (writeToActiveList config gatingId token state).pendingList = state.pendingList := by
  unfold writeToActiveList
  split <;> rfl

theorem writeToPendingList_active (gatingId : Int) (payload : AtGenPayload) (state : State) :
    (writeToPendingList config gatingId payload state).activeList = state.activeList := by
  unfold writeToPendingList
  split <;> rfl

theorem writeToActiveList_slot (input : Input) (output : Output) (gatingId : Int) (token : Str)
    (state : State) (issued : output.issued = some token) (i : Fin listSize) :
    ActiveSlot config input output (state.activeList.get i)
      ((writeToActiveList config gatingId token state).activeList.get i) := by
  unfold writeToActiveList
  split
  · next j found =>
    exact rel_get_set (fun _ => .same rfl)
      (.write gatingId token (of_first found) issued rfl) i
  · exact .same rfl

theorem addCheckJti_state (jti : Str) (state : State) :
    ∃ cache, (addCheckJti jti state).1 = { state with jtiCache := cache } := by
  unfold addCheckJti
  split
  · exact ⟨state.jtiCache, rfl⟩
  · exact ⟨_, rfl⟩

theorem validatePop_state (now : Time) (payload : AtGenPayload) (state : State) :
    (validatePop config now payload state).1 =
      (addCheckJti (claim payload.popTk.payloadClaims "jti") state).1 := by
  unfold validatePop
  simp only
  split_ifs <;> rfl

theorem checkPop_state (now : Time) (payload : AtGenPayload) (state : State) :
    ∃ cache, (checkPop config now payload state).1 = { state with jtiCache := cache } := by
  unfold checkPop
  split
  · exact ⟨state.jtiCache, rfl⟩
  · rw [validatePop_state]
    exact addCheckJti_state _ state

theorem validateRequest_state (now : Time) (payload : AtGenPayload) (state : State) :
    ∃ cache, (validateRequest config now payload state).1 = { state with jtiCache := cache } := by
  obtain ⟨cache, checked⟩ := checkPop_state config now payload state
  unfold validateRequest
  split
  · exact ⟨state.jtiCache, rfl⟩
  · split
    · exact ⟨state.jtiCache, rfl⟩
    · exact ⟨state.jtiCache, rfl⟩
    · split
      · exact ⟨state.jtiCache, rfl⟩
      · refine ⟨cache, ?_⟩
        rcases pop : checkPop config now payload state with ⟨next, error⟩
        rw [pop] at checked
        cases error with
        | some => exact checked
        | none =>
          simp only
          split_ifs <;> exact checked

def AtResponse.Refuses : AtResponse → Prop
  | .pending _ | .issued _ => False
  | _ => True

variable {request : Str} {response : AtResponse}

theorem decodeAtGenPayload_error (malformed : decodeAtGenPayload config request = .error response) :
    response.Refuses := by
  unfold decodeAtGenPayload at malformed
  split at malformed
  · cases malformed
    trivial
  · split at malformed
    · cases malformed
      trivial
    · split_ifs at malformed
      split at malformed
      · cases malformed
        trivial
      · cases malformed

theorem accessTokenResponse_cases {now : Time} {uuid : Option Str} {state after : State}
    {ask : Option Str}
    (answered : accessTokenResponse config now uuid request state = some (after, response, ask)) :
    ((∃ cache, after = { state with jtiCache := cache }) ∧ response.Refuses ∧ ask = none) ∨
    ∃ payload requiresConsent cache, decodeAtGenPayload config request = .ok payload ∧
      (validateRequest config now payload state).2 = none ∧
      checkifConsent config.himForest config.pList payload.purpose = some requiresConsent ∧
      (after, response, ask) = grant config now uuid payload requiresConsent
        (newGatingId { state with jtiCache := cache }) := by
  unfold accessTokenResponse at answered
  split at answered
  · next error malformed =>
    cases answered
    exact .inl ⟨⟨_, rfl⟩, decodeAtGenPayload_error config malformed, rfl⟩
  · next payload decoded =>
    obtain ⟨cache, validated⟩ := validateRequest_state config now payload state
    split at answered
    · next next error invalid =>
      rw [invalid] at validated
      cases answered
      exact .inl ⟨⟨cache, validated⟩, trivial, rfl⟩
    · next next valid =>
      rw [valid] at validated
      simp only at validated
      subst validated
      obtain ⟨requiresConsent, checked, granted⟩ := map_eq_some_iff.mp answered
      exact .inr ⟨payload, requiresConsent, cache, decoded, by rw [valid], checked, granted.symm⟩

theorem findExpired_expired {α : Type} {n : Nat} {gatingId : α → Int} {expiry : α → Str}
    {now : Time} {list : Slots α n} {i : Fin n}
    (found : findExpired gatingId expiry now list = .expired i) : gatingId (list.get i) ≠ -1 ∧
      ∃ seconds, atoi (expiry (list.get i)) = some seconds ∧ now.after seconds = true := by
  unfold findExpired at found
  split at found
  · next j first =>
    split_ifs at found with readable
    cases found
    have hit := (first_eq_some _ _ _ first).1
    obtain ⟨seconds, time⟩ := isSome_iff_exists.mp readable
    rw [time] at hit
    simp only [ne_eq, decide_not, and_eq_true, not_eq_true', decide_eq_false_iff_not]
      at hit
    exact ⟨hit.1, seconds, time, hit.2⟩
  · cases found

inductive Effect (config : Config) (input : Input) (before : State) : State → Output → Prop
  | idle {after : State} {output : Output} (pending : after.pendingList = before.pendingList)
      (active : after.activeList = before.activeList) (silent : output.issued = none) :
      Effect config input before after output
  | ask {request : Str} {uuid : Option Str} {payload : AtGenPayload} {cache : List Str}
      {ask : Option Str} (received : input.event = .client request uuid)
      (asked : contains request "at-request" = true)
      (decoded : decodeAtGenPayload config request = .ok payload)
      (valid : (validateRequest config input.now payload before).2 = none)
      (checked : checkifConsent config.himForest config.pList payload.purpose = some true)
      (available : before.ecfAvailable = true) :
      Effect config input before
        (writeToPendingList config ((before.gatingId + 1) % 9999) payload
          (newGatingId { before with jtiCache := cache }))
        (.atRequest (.pending ((before.gatingId + 1) % 9999)) ask)
  | issue {request : Str} {uuid : Option Str} {payload : AtGenPayload} {cache : List Str}
      (received : input.event = .client request uuid)
      (asked : contains request "at-request" = true)
      (decoded : decodeAtGenPayload config request = .ok payload)
      (valid : (validateRequest config input.now payload before).2 = none)
      (checked : checkifConsent config.himForest config.pList payload.purpose = some false) :
      Effect config input before
        (writeToActiveList config ((before.gatingId + 1) % 9999)
          (generateAt config input.now uuid payload)
          (newGatingId { before with jtiCache := cache }))
        (.atRequest (.issued (generateAt config input.now uuid payload)) none)
  | collect {request : Str} {uuid : Option Str} {i : Fin listSize}
      (received : input.event = .client request uuid)
      (inquiry : contains request "at-request" = false)
      (named : (before.pendingList.get i).gatingId = extractGatingId request)
      (answered : (before.pendingList.get i).consent ≠ "NOT_SET")
      (agreed : (before.pendingList.get i).consent ≠ "NO") :
      Effect config input before
        (writeToActiveList config (extractGatingId request)
          (generateAt config input.now uuid (before.pendingList.get i).atGenData)
          (removeFromPendingList i before))
        (.atInquiry (.issued (generateAt config input.now uuid (before.pendingList.get i).atGenData)
          (before.pendingList.get i).consent))
  | remove (i : Fin listSize) {output : Output} (silent : output.issued = none) :
      Effect config input before (removeFromPendingList i before) output
  | reply {i : Fin listSize} {message : Str} {gatingId : Int} {consent text : Str}
      (received : input.event = .ecf message)
      (accepted : acceptedReply config message = some (gatingId, consent))
      (named : (before.pendingList.get i).gatingId = gatingId) :
      Effect config input before
        { before with
          pendingList := before.pendingList.set i { before.pendingList.get i with consent } }
        (.ecf text none)
  | cancel {i : Fin listSize} {message : Str} {gatingId : Int} {name text : Str}
      (received : input.event = .ecf message)
      (accepted : acceptedCancel config message = some (gatingId, name))
      (named : (before.activeList.get i).gatingId = gatingId) :
      Effect config input before (removeFromActiveList i before) (.ecf text (some name))
  | expire {i : Fin listSize} {seconds : Int} {cancel : Option Str}
      (ticked : input.event = .expiryTicker)
      (time : atoi (before.activeList.get i).atExpiryTime = some seconds)
      (past : input.now.after seconds = true) :
      Effect config input before (removeFromActiveList i before) (.purge cancel)

variable {config} {before after : State} {now : Time} {input : Input} {output : Output}

theorem accessTokenResponse_effect {uuid : Option Str} {ask : Option Str}
    (asked : contains request "at-request" = true)
    (answered : accessTokenResponse config now uuid request before = some (after, response, ask)) :
    Effect config ⟨now, .client request uuid⟩ before after (.atRequest response ask) := by
  rcases accessTokenResponse_cases config answered with
    ⟨⟨cache, rfl⟩, refused, -⟩ | ⟨payload, requiresConsent, cache, decoded, valid, checked, granted⟩
  · refine .idle rfl rfl ?_
    cases response with
    | pending | issued => exact refused.elim
    | requestMalformed | agtMalformed | popMalformed | invalid | noConsentFramework => rfl
  · unfold grant at granted
    split_ifs at granted with requires available
    · cases granted
      exact .ask rfl asked decoded valid (requires ▸ checked) available
    · cases granted
      exact .idle rfl rfl rfl
    · cases granted
      exact .issue rfl asked decoded valid (eq_false_iff.mpr requires ▸ checked)

theorem consentInquiryResponse_effect (uuid : Option Str) (request : Str)
    (inquiry : contains request "at-request" = false) :
    Effect config ⟨now, .client request uuid⟩ before
      (consentInquiryResponse config now uuid request before).1
      (.atInquiry (consentInquiryResponse config now uuid request before).2) := by
  unfold consentInquiryResponse
  simp only
  split
  · exact .idle rfl rfl rfl
  · next i found =>
    split_ifs with notSet refused
    · exact .idle rfl rfl rfl
    · exact .remove i rfl
    · exact .collect rfl inquiry (of_first found) notSet refused

theorem ecfMessage_effect (message : Str) :
    Effect config ⟨now, .ecf message⟩ before (ecfMessage config message before).1
      (ecfMessage config message before).2 := by
  unfold ecfMessage
  split_ifs with available status
  · exact .idle rfl rfl rfl
  · exact .idle rfl rfl rfl
  · unfold generateEcfResponse
    split_ifs with isReply isCancel
    · unfold consentReplyResponse
      dsimp only
      split
      · exact .idle rfl rfl rfl
      · next gatingId consent parsed =>
        split
        · next i found =>
          have accepted : acceptedReply config message = some (gatingId, consent) := by
            rw [acceptedReply, if_neg status, if_pos isReply, parsed]
            rfl
          exact .reply rfl accepted (of_first found)
        · exact .idle rfl rfl rfl
    · unfold consentCancelResponse
      dsimp only
      split
      · exact .idle rfl rfl rfl
      · next gatingId name parsed =>
        split
        · next i _ => exact .remove i rfl
        · split
          · next i found =>
            have accepted : acceptedCancel config message = some (gatingId, name) := by
              rw [acceptedCancel, if_neg (not_or.mpr ⟨status, isReply⟩), if_pos isCancel, parsed]
              rfl
            exact .cancel rfl accepted (of_first found)
          · exact .idle rfl rfl rfl
    · exact .idle rfl rfl rfl

theorem purgeLists_effect : Effect config ⟨now, .expiryTicker⟩ before (purgeLists now before).1
      (.purge ((purgeLists now before).2.map itoa)) := by
  unfold purgeLists
  split
  · exact .idle rfl rfl rfl
  · next i _ => exact .remove i rfl
  · split
    · next i found =>
      obtain ⟨-, seconds, time, past⟩ := findExpired_expired found
      exact .expire rfl time past
    · exact .idle rfl rfl rfl

section

variable (taken : step config before input = some (after, output))

include taken

theorem step_effect : Effect config input before after output := by
  obtain ⟨now, event⟩ := input
  cases event with
  | client request uuid =>
    simp only [step, generateClientResponse] at taken
    split_ifs at taken with isRequest
    · obtain ⟨⟨next, response, ask⟩, answered, same⟩ := map_eq_some_iff.mp taken
      cases same
      exact accessTokenResponse_effect isRequest answered
    · cases taken
      exact consentInquiryResponse_effect uuid request (eq_false_iff.mpr isRequest)
    · cases taken
      exact .idle rfl rfl rfl
  | core =>
    obtain ⟨response, -, same⟩ := map_eq_some_iff.mp taken
    cases same
    exact .idle rfl rfl rfl
  | ecf message =>
    have result : ecfMessage config message before = (after, output) := some.inj taken
    have effect := @ecfMessage_effect config before now message
    rw [result] at effect
    exact effect
  | expiryTicker =>
    cases taken
    exact purgeLists_effect
  | deleteJti =>
    cases taken
    exact .idle rfl rfl rfl

theorem step_active (i : Fin listSize) :
    ActiveSlot config input output (before.activeList.get i) (after.activeList.get i) := by
  have remove := @rel_get_set _ listSize before.activeList
    (ActiveSlot config input output) fun _ => .same rfl
  cases step_effect taken with
  | idle pending active => exact .same (by rw [active])
  | ask => exact .same (by rw [writeToPendingList_active]; rfl)
  | @issue _ _ _ cache =>
    exact writeToActiveList_slot config input (.atRequest (.issued _) none) _ _
      (newGatingId { before with jtiCache := cache }) rfl i
  | collect =>
    exact writeToActiveList_slot config input (.atInquiry (.issued _ _)) _ _
      (removeFromPendingList _ before) rfl i
  | remove | reply => exact .same rfl
  | cancel received accepted named => exact remove (.cancel _ _ _ received accepted named rfl) i
  | expire ticked time past => exact remove (.expire _ ticked time past rfl) i

theorem step_pending (i : Fin listSize) :
    PendingSlot config input output before (before.pendingList.get i)
      (after.pendingList.get i) := by
  have change := @rel_get_set _ listSize before.pendingList
    (PendingSlot config input output before) fun _ => .same rfl
  cases step_effect taken with
  | idle pending => exact .same (by rw [pending])
  | ask received asked decoded valid checked =>
    unfold writeToPendingList
    split
    · next j found =>
      exact change (.put _ _ _ _ _ received decoded valid checked rfl (of_first found) rfl) i
    · exact .same rfl
  | issue => exact .same (by rw [writeToActiveList_pending]; rfl)
  | collect =>
    rw [writeToActiveList_pending]
    exact change (.remove rfl) i
  | remove => exact change (.remove rfl) i
  | reply received accepted named => exact change (.reply _ _ received (named ▸ accepted) rfl) i
  | cancel | expire => exact .same rfl

theorem step_issued {token : Str} (issued : output.issued = some token) :
    ∃ uuid payload, token = generateAt config input.now uuid payload := by
  cases step_effect taken with
  | issue | collect =>
    cases issued
    exact ⟨_, _, rfl⟩
  | idle _ _ silent | remove _ silent =>
    rw [silent] at issued
    cases issued
  | ask | reply | cancel | expire => cases issued

end

theorem step_inquiry {token consent : Str}
    (taken : step config before input = some (after, .atInquiry (.issued token consent))) :
    ∃ request uuid i, input.event = .client request uuid ∧ contains request "at-request" = false ∧
      (before.pendingList.get i).gatingId = extractGatingId request ∧
      (before.pendingList.get i).consent ≠ "NOT_SET" ∧ (before.pendingList.get i).consent ≠ "NO" ∧
      token = generateAt config input.now uuid (before.pendingList.get i).atGenData := by
  cases step_effect taken with
  | idle _ _ silent | remove _ silent => cases silent
  | collect received inquiry named answered agreed =>
    exact ⟨_, _, _, received, inquiry, named, answered, agreed, rfl⟩

end Vissr.AtServer
