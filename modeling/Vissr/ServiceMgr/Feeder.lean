import Vissr.Counters
import Vissr.ServiceMgr.Dispatch

/-! The front end towards the feeders (`feederFrontend` in `serviceMgr/serviceMgr.go`). -/

namespace Vissr.ServiceMgr

open Json Act

structure FeederSubElem where
  subscriptionId : Str
  path : List Str
  variant : Str
  deriving DecidableEq

/-- A path, and the number of times that subscriptions refer to it. -/
abbrev FeederPathElem := Counter Str

def stringsOf (path : List Value) : List Str := path.filterMap fun
    | .str s => some s
    | _ => none

def addOnFeederSubList (subscriptionId variant : Str) (path : List Value)
    (feederSubList : List FeederSubElem) : List FeederSubElem :=
  feederSubList ++ [{ subscriptionId, variant, path := stringsOf path }]

/-- The rest of the list and the paths; none if it is not on the list. -/
def deleteOnFeederSubList (subscriptionId : Str) (feederSubList : List FeederSubElem) :
    List FeederSubElem × List Str :=
  match feederSubList.findIdx? fun elem => elem.subscriptionId = subscriptionId with
  | some i => (feederSubList.eraseIdx i, ((feederSubList[i]?).map FeederSubElem.path).getD [])
  | none => ([], [])

/-- Texts in an array, where the last comma and quote are cut off again. -/
def pathArray (paths : List Str) : Str :=
  let feederUpdatePath := "[\"".toList ++ paths.flatMap fun path => path ++ "\", \"".toList
  feederUpdatePath.take (feederUpdatePath.length - 4) ++ "\"]".toList

/-- One path after the other, with those that are new. -/
def addPaths : List Str → List FeederPathElem → List FeederPathElem × List Str
  | [], feederPathList => (feederPathList, [])
  | path :: rest, feederPathList =>
    let added := addPaths rest (Counter.retain path feederPathList)
    if path ∈ Counter.keys feederPathList then added else (added.1, path :: added.2)

def addOnFeederPathList (path : List Value) (feederPathList : List FeederPathElem) :
    List FeederPathElem × Str :=
  let added := addPaths (stringsOf path) feederPathList
  (added.1, if added.2 = [] then [] else pathArray added.2)

def removePaths : List Str → List FeederPathElem → List FeederPathElem × List Str
  | [], feederPathList => (feederPathList, [])
  | path :: rest, feederPathList =>
    let removed := removePaths rest (Counter.release path feederPathList)
    if Counter.lastUse path feederPathList then (removed.1, path :: removed.2) else removed

def deleteOnFeederPathList (path : List Str) (feederPathList : List FeederPathElem) :
    List FeederPathElem × Str :=
  let removed := removePaths path feederPathList
  (removed.1, if removed.2 = [] then [] else pathArray removed.2)

def getSubscribeVariant (path : Str) (feederSubList : List FeederSubElem) : Str :=
  let variants := feederSubList.foldl (fun variants elem =>
    elem.path.foldl (fun variants p =>
      if p = path ∧ contains variants elem.variant = false then variants ++ elem.variant ++ ['+']
      else variants) variants) []
  variants.dropLast

/-- The room in the channels from and to the loop of the service manager. -/
def feederBuf : Nat := 32

inductive Support where
  | notVerified
  | notSupported
  | supported
  deriving DecidableEq

structure Frontend where
  feederSubList : List FeederSubElem := []
  feederPathList : List FeederPathElem := []
  feederNotification : Support := .notVerified
  subMessageCount : Nat := 0
  deriving DecidableEq

inductive InfoType where
  | data
  | service
  deriving DecidableEq

/-- What the front end does that others can see. -/
inductive FrontendEffect where
  /-- a line for all feeders of a kind that are connected -/
  | write (infoType : InfoType) (line : Str)
  | fromFeederRorC (message : Str)
  | fromFeederCl (message : Str)
  deriving DecidableEq

abbrev FrontendLoop := Act FrontendEffect

def writeLine (infoType : InfoType) (message : Str) (s : Frontend) : FrontendLoop Frontend := do
  emit (.write infoType message)
  return s

/-- The feeder is told of the new paths; after five messages without its consent nothing for once,
and from then on the messages themselves. -/
def forwardSubscribe (message subscriptionId variant : Str) (path : List Value) (s : Frontend) :
    FrontendLoop Frontend :=
  let (feederPathList, feederUpdatePath) := addOnFeederPathList path s.feederPathList
  let listed := { s with
    feederSubList := addOnFeederSubList subscriptionId variant path s.feederSubList
    feederPathList }
  if s.feederNotification = .notSupported then writeLine .data message listed
  else if 5 ≤ s.subMessageCount then return { listed with feederNotification := .notSupported }
  else
    writeLine .data
      ("\x7b\"action\": \"subscribe\", \"path\":" ++ feederUpdatePath ++ ['\x7d'])
      { listed with subMessageCount := s.subMessageCount + 1 }

def forwardUnsubscribe (message subscriptionId : Str) (s : Frontend) : FrontendLoop Frontend := do
  emit (.fromFeederCl message)
  let (feederSubList, unsubscribePath) := deleteOnFeederSubList subscriptionId s.feederSubList
  let (feederPathList, feederUpdatePath) := deleteOnFeederPathList unsubscribePath s.feederPathList
  let left := { s with feederSubList, feederPathList }
  if 4 < feederUpdatePath.length then
    writeLine .data
      ("\x7b\"action\": \"unsubscribe\", \"path\":" ++ feederUpdatePath ++ ['\x7d']) left
  else return left

variable (message : Str) (s : Frontend)

/-- Incomplete messages are skipped. The send to the curve logs does not wait. -/
def handleToFeederMessage : FrontendLoop Frontend :=
  match unmarshalMap message with
  | none => return s
  | some messageMap =>
    match getStr messageMap "action" with
    | none => return s
    | some action =>
      if action = "subscribe" then
        match getStr messageMap "subscriptionId", getStr messageMap "variant",
            messageMap.lookup "path".toList with
        | some subscriptionId, some variant, some (.arr path) =>
          forwardSubscribe message subscriptionId variant path s
        | _, _, _ => return s
      else if action = "unsubscribe" then
        match getStr messageMap "subscriptionId" with
        | some subscriptionId => forwardUnsubscribe message subscriptionId s
        | none => return s
      else if action = "set" then writeLine .data message s
      else if action = "invoke" then writeLine .service message s
      else return s

/-- Here a wrong type is a panic and every send waits. -/
def receiveToFeeder : FrontendLoop Frontend :=
  match unmarshalMap message with
  | none => return s
  | some messageMap =>
    if isNil messageMap "action" then return s
    else
      match getStr messageMap "action" with
      | none => halt
      | some action =>
        if action = "subscribe" then
          if isNil messageMap "subscriptionId" ∨ isNil messageMap "variant" ∨
              isNil messageMap "path" then return s
          else
            match getStr messageMap "subscriptionId", getStr messageMap "variant",
                messageMap.lookup "path".toList with
            | some subscriptionId, some variant, some (.arr path) =>
              forwardSubscribe message subscriptionId variant path s
            | _, _, _ => halt
        else if action = "unsubscribe" then
          if isNil messageMap "subscriptionId" then return s
          else
            match getStr messageMap "subscriptionId" with
            | some subscriptionId => forwardUnsubscribe message subscriptionId s
            | none => do
                emit (.fromFeederCl message)
                halt
        else if action = "set" then writeLine .data message s
        else if action = "invoke" then writeLine .service message s
        else return s

def forwardNotification (message path : Str) (s : Frontend) : FrontendLoop Frontend := do
  let variant := getSubscribeVariant path s.feederSubList
  if contains variant "change" ∨ contains variant "range" then
    emit (.fromFeederRorC message)
  if contains variant "curvelog" then emit (.fromFeederCl message)
  return s

def verifyFeeder (message status : Str) (s : Frontend) : FrontendLoop Frontend :=
  if status = "ok" then do
    emit (.fromFeederRorC message)
    emit (.fromFeederCl message)
    return { s with feederNotification := .supported }
  else return { s with feederNotification := .notSupported }

def handleFromFeederMessage : FrontendLoop Frontend :=
  match unmarshalMap message with
  | none => return s
  | some messageMap =>
    match getStr messageMap "action" with
    | none => return s
    | some action =>
      if action = "subscribe" then
        match getStr messageMap "status" with
        | some status => verifyFeeder message status s
        | none => return s
      else if action = "subscription" then
        match getStr messageMap "path" with
        | some path => forwardNotification message path s
        | none => return s
      else return s

/-- The copy of the loop, again with panics, and with sends that wait. -/
def receiveFromFeeders : FrontendLoop Frontend :=
  match unmarshalMap message with
  | none => return s
  | some messageMap =>
    if isNil messageMap "action" then return s
    else
      match getStr messageMap "action" with
      | none => halt
      | some action =>
        if action = "subscribe" then
          if isNil messageMap "status" then return s
          else
            match getStr messageMap "status" with
            | some status => verifyFeeder message status s
            | none => halt
        else if action = "subscription" then
          if isNil messageMap "path" then return s
          else
            match getStr messageMap "path" with
            | some path => forwardNotification message path s
            | none => halt
        else return s

/-! ### The loop and its handlers -/

def Mistyped (messageMap : Map Value) (key : Str) : Prop :=
  isNil messageMap key = false ∧ getStr messageMap key = none

/-- The fields that are used are of the right types. -/
def TypedRequest (messageMap : Map Value) : Prop :=
  ¬ Mistyped messageMap "action" ∧ ∀ action, getStr messageMap "action" = some action →
    (action = "subscribe" →
      (isNil messageMap "subscriptionId" ∨ isNil messageMap "variant" ∨ isNil messageMap "path") ∨
        ∃ id variant path, getStr messageMap "subscriptionId" = some id ∧
          getStr messageMap "variant" = some variant ∧
          messageMap.lookup "path".toList = some (.arr path)) ∧
    (action = "unsubscribe" → ¬ Mistyped messageMap "subscriptionId")

/-- The fields that are used are of the right types. -/
def TypedAnswer (messageMap : Map Value) : Prop :=
  ¬ Mistyped messageMap "action" ∧ ∀ action, getStr messageMap "action" = some action →
    (action = "subscribe" → ¬ Mistyped messageMap "status") ∧
    (action = "subscription" → ¬ Mistyped messageMap "path")

/-- The loop does as the handler, and does not panic. -/
def Mirrors (loop handler : FrontendLoop Frontend) : Prop :=
  loop = handler ∧ loop.result.isSome = true

theorem ends_forwardSubscribe (id variant : Str) (path : List Value) :
    (forwardSubscribe message id variant path s).result.isSome = true := by
  simp only [forwardSubscribe]
  split_ifs <;> rfl

theorem ends_forwardUnsubscribe (id : Str) :
    (forwardUnsubscribe message id s).result.isSome = true := by
  simp only [forwardUnsubscribe, result_bind, result_emit, Option.bind_some]
  split_ifs <;> rfl

theorem ends_verifyFeeder (status : Str) :
    (verifyFeeder message status s).result.isSome = true := by
  unfold verifyFeeder
  split_ifs <;> rfl

theorem ends_forwardNotification (path : Str) :
    (forwardNotification message path s).result.isSome = true := by
  unfold forwardNotification
  dsimp only
  split_ifs <;> rfl

variable {s} {messageMap : Map Value} {key : Str} {stop : FrontendLoop Frontend}

theorem mirrors_field (halts : stop.result = none) (loop handler : Str → FrontendLoop Frontend) :
    Mirrors
        (if isNil messageMap key then return s
        else
          match getStr messageMap key with
          | none => stop
          | some text => loop text)
        (match getStr messageMap key with
          | none => return s
          | some text => handler text) ↔
      ¬ Mistyped messageMap key ∧
        ∀ text, getStr messageMap key = some text → Mirrors (loop text) (handler text) := by
  cases found : getStr messageMap key with
  | none => cases missing : isNil messageMap key <;> simp [Mirrors, Mistyped, missing, found, halts]
  | some text => simp [Mistyped, isNil_of_getStr found, found]

theorem mirrors_text (halts : stop.result = none) {f : Str → FrontendLoop Frontend}
    (ends : ∀ text, (f text).result.isSome = true) :
    Mirrors
        (if isNil messageMap key then return s
        else
          match getStr messageMap key with
          | some text => f text
          | none => stop)
        (match getStr messageMap key with
          | some text => f text
          | none => return s) ↔ ¬ Mistyped messageMap key := by
  have field := (@mirrors_field s messageMap key stop halts f f).trans
    (and_iff_left fun text _ => ⟨rfl, ends text⟩)
  cases found : getStr messageMap key <;> rwa [found] at field

theorem mirrors_branches {a b p q : Prop} [Decidable a] [Decidable b]
    {l l' h h' rest : FrontendLoop Frontend} (apart : a → ¬ b) (first : Mirrors l h ↔ p)
    (second : Mirrors l' h' ↔ q) (ends : rest.result.isSome = true) :
    Mirrors (if a then l else if b then l' else rest) (if a then h else if b then h' else rest) ↔
      (a → p) ∧ (b → q) := by
  split_ifs with isA isB
  · simp [isA, apart isA, first]
  · simp [isA, isB, second]
  · simp [isA, isB, Mirrors, ends]

theorem receiveFromFeeders_mirrors :
    Mirrors (receiveFromFeeders message s) (handleFromFeederMessage message s) ↔
      ∀ messageMap, unmarshalMap message = some messageMap → TypedAnswer messageMap := by
  unfold receiveFromFeeders handleFromFeederMessage
  cases unmarshalMap message with
  | none => exact iff_of_true ⟨rfl, rfl⟩ nofun
  | some messageMap =>
    simp only [Option.some.injEq, forall_eq', TypedAnswer]
    refine (mirrors_field rfl _ _).trans (and_congr_right fun _ => forall₂_congr fun action _ => ?_)
    exact mirrors_branches (by rintro rfl; decide) (mirrors_text rfl (ends_verifyFeeder message s))
      (mirrors_text rfl (ends_forwardNotification message s)) rfl

theorem receiveToFeeder_mirrors :
    Mirrors (receiveToFeeder message s) (handleToFeederMessage message s) ↔
      ∀ messageMap, unmarshalMap message = some messageMap → TypedRequest messageMap := by
  unfold receiveToFeeder handleToFeederMessage
  cases unmarshalMap message with
  | none => exact iff_of_true ⟨rfl, rfl⟩ nofun
  | some messageMap =>
    simp only [Option.some.injEq, forall_eq', TypedRequest]
    refine (mirrors_field rfl _ _).trans (and_congr_right fun _ => forall₂_congr fun action _ => ?_)
    refine mirrors_branches (by rintro rfl; decide) ?_
      (mirrors_text rfl (ends_forwardUnsubscribe message s)) (by split_ifs <;> rfl)
    split_ifs with missing
    · refine iff_of_true ⟨?_, rfl⟩ (.inl missing)
      split
      · next id kind path =>
        rw [isNil_of_getStr id, isNil_of_getStr kind, isNil, path] at missing
        simp at missing
      · rfl
    · split
      · next id kind path =>
        exact iff_of_true ⟨rfl, ends_forwardSubscribe message s _ _ _⟩
          (.inr ⟨_, _, _, id, kind, path⟩)
      · next other =>
        refine iff_of_false (fun same => by cases same.2) ?_
        rintro (nil | ⟨id, variant, path, given⟩)
        · exact missing nil
        · exact other _ _ _ given.1 given.2.1 given.2.2

/-- The loop does what the handlers do as long as the fields have the right types. -/
theorem frontend_mirrors_handlers_iff (message : Str) (s : Frontend) :
    (Mirrors (receiveToFeeder message s) (handleToFeederMessage message s) ↔
      ∀ messageMap, unmarshalMap message = some messageMap → TypedRequest messageMap) ∧
    (Mirrors (receiveFromFeeders message s) (handleFromFeederMessage message s) ↔
      ∀ messageMap, unmarshalMap message = some messageMap → TypedAnswer messageMap) :=
  ⟨receiveToFeeder_mirrors message, receiveFromFeeders_mirrors message⟩

/-- A number for the action ends the server. -/
theorem frontend_panics_on_number :
    ¬ Mirrors (receiveFromFeeders "\x7b\"action\":1\x7d" {})
      (handleFromFeederMessage "\x7b\"action\":1\x7d" {}) := by
  rintro ⟨-, ends⟩
  exact absurd ends (by decide +kernel)

end Vissr.ServiceMgr
