import Vissr.Json.Solid
import Vissr.ServiceMgr.FeederTexts
import Vissr.ServiceMgr.Lockstep

/-! Storages that are written through the feeder (`serviceMgr/storage_backend.go`). -/

namespace Vissr.ServiceMgr

open Json List

def setMessage (path value ts : Str) : Str :=
  "\x7b\"action\": \"set\", \"data\": \x7b\"path\":\"" ++ path ++
    "\", \"dp\":\x7b\"value\":\"" ++ value ++ "\", \"ts\":\"" ++ ts ++
      "\"\x7d\x7d\x7d"

variable (rfcTime path value : Str)

/-- A value goes to the feeder only. -/
def setThroughFeeder : Str × List Str := (rfcTime, [setMessage path value rfcTime])

def redisBackendSet : Str × List Str := setThroughFeeder rfcTime path value

def memcacheBackendSet : Str × List Str := setThroughFeeder rfcTime path value

def writeText : Value → Option Str
  | .str s => some s
  | .obj m => some (Value.obj m).marshal
  | _ => none

/-- The characters of a time stamp. -/
def isRfcTimeChar (c : Char) : Bool :=
  isDigit c || c = '-' || c = ':' || c = '.' || c = 'T' || c = 'Z' || c = '+'

def IsRfcTime (ts : Str) : Prop := ts ≠ [] ∧ ∀ c ∈ ts, isRfcTimeChar c = true

instance (ts : Str) : Decidable (IsRfcTime ts) := @instDecidableAnd _ _ _ (List.decidableBAll _ _)

def TellsSet (message path value ts : Str) : Prop :=
  ∃ messageMap data dp, unmarshalMap message = some messageMap ∧
    getStr messageMap "action" = some "set".toList ∧
    messageMap.lookup "data".toList = some (.obj data) ∧
    getStr data "path" = some path ∧ data.lookup "dp".toList = some (.obj dp) ∧
    getStr dp "value" = some value ∧ getStr dp "ts" = some ts

/-- The answer has a time stamp, and the feeder gets it with path and value. -/
def ArrivesIntact (env : Env) (requestMap : Map Value) (mgr : Manager) (path value : Str) : Prop :=
  ∃ message responseMap ts, (handleServiceSet env requestMap mgr).effects =
      [.toFeeder message, .dataChan responseMap] ∧
    getStr responseMap "ts" = some ts ∧ TellsSet message path value ts

/-- A value whose text can stand between quotes. -/
def PlainValue : Value → Prop
  | .str s => PlainText s
  | .obj m => m = []
  | _ => False

variable {path value ts : Str}

theorem IsRfcTime.plain (time : IsRfcTime ts) : PlainText ts := by
  intro c mem
  have allowed := time.2 c mem
  simp only [isRfcTimeChar, isDigit, Bool.or_eq_true, Bool.and_eq_true,
    decide_eq_true_eq] at allowed
  simp only [isPlain, Bool.and_eq_true, decide_eq_true_eq]
  obtain (((((digit | rfl) | rfl) | rfl) | rfl) | rfl) | rfl := allowed
  · refine ⟨⟨?_, ?_⟩, ?_⟩
    · rintro rfl
      revert digit
      decide
    · rintro rfl
      revert digit
      decide
    · have low : '0'.toNat ≤ c.toNat := digit.1
      have zero : '0'.toNat = 48 := rfl
      omega
  all_goals decide

def dpMembers (value ts : Str) : List (Str × Raw × Str) :=
  [("value", .str (literal value), pasted value), ("ts", .str (literal ts), pasted ts)]

def dpText (value ts : Str) : Str :=
  spacedObject "value" (pasted value) [("ts", .str (literal ts), pasted ts)]

def dataMembers (path value ts : Str) : List (Str × Raw × Str) :=
  [("path", .str (literal path), pasted path),
    ("dp", membersObject (dpMembers value ts), dpText value ts)]

def dataText (path value ts : Str) : Str := spacedObject "path" (pasted path)
    [("dp", membersObject (dpMembers value ts), dpText value ts)]

def setMembers (path value ts : Str) : List (Str × Raw × Str) :=
  [("action", .str (literal "set"), ' ' :: pasted "set"),
    ("data", membersObject (dataMembers path value ts), ' ' :: dataText path value ts)]

theorem reads_dpText (plainValue : PlainText value) (plainTs : PlainText ts) :
    Reads (membersObject (dpMembers value ts)) (dpText value ts) :=
  reads_pair (by decide) (by decide) (reads_pasted value plainValue) (reads_pasted ts plainTs)

theorem reads_dataText (plainPath : PlainText path) (plainValue : PlainText value)
    (plainTs : PlainText ts) :
    Reads (membersObject (dataMembers path value ts)) (dataText path value ts) :=
  reads_pair (by decide) (by decide) (reads_pasted path plainPath)
    (reads_dpText plainValue plainTs)

theorem setMessage_eq : setMessage path value ts = spacedObject "action" (' ' :: pasted "set")
      [("data", membersObject (dataMembers path value ts), ' ' :: dataText path value ts)] := by
  rw [spacedObject_pair, dataText, spacedObject_pair, dpText, spacedObject_pair]
  delta setMessage
  simp only [pasted, String.reduceToList, append_assoc, cons_append, nil_append]

theorem dpMembers_value (plainValue : PlainText value) (plainTs : PlainText ts) :
    (membersObject (dpMembers value ts)).value =
      .obj (mapOf [("value", .str value), ("ts", .str ts)]) := by
  rw [dpMembers, membersObject_value (plainKeys_pair (by decide) (by decide))]
  simp only [map_cons, map_nil, value_text plainValue, value_text plainTs]

theorem dataMembers_value (plainPath : PlainText path) (plainValue : PlainText value)
    (plainTs : PlainText ts) : (membersObject (dataMembers path value ts)).value =
      .obj (mapOf [("path", .str path),
        ("dp", .obj (mapOf [("value", .str value), ("ts", .str ts)]))]) := by
  rw [dataMembers, membersObject_value (plainKeys_pair (by decide) (by decide))]
  simp only [map_cons, map_nil, value_text plainPath, dpMembers_value plainValue plainTs]

theorem tellsSet_of_plain (plainPath : PlainText path) (plainValue : PlainText value)
    (plainTs : PlainText ts) : TellsSet (setMessage path value ts) path value ts := by
  have keys : ∀ m ∈ setMembers path value ts, PlainText m.1 :=
    plainKeys_pair (by decide) (by decide)
  have reads : Reads (membersObject (setMembers path value ts)) (setMessage path value ts) := by
    rw [setMessage_eq]
    exact reads_pair (by decide) (by decide) (reads_pasted "set" (by decide)).space
      (reads_dataText plainPath plainValue plainTs).space
  have nested : (membersObject (setMembers path value ts)).nesting = 3 := rfl
  have range : ∀ m ∈ setMembers path value ts, m.2.1.inRange = true := by
    intro m mem
    simp only [setMembers, mem_cons, not_mem_nil, or_false] at mem
    obtain rfl | rfl := mem
    · rfl
    · rfl
  have decoded := unmarshalMap_of_reads reads keys (nested ▸ by decide) range
  simp only [setMembers, map_cons, map_nil, value_text (by decide : PlainText "set"),
    dataMembers_value plainPath plainValue plainTs] at decoded
  exact ⟨_, _, _, decoded, getStr_eq_some.mpr (lookup_pair (by decide)).1,
    (lookup_pair (by decide)).2, getStr_eq_some.mpr (lookup_pair (by decide)).1,
    (lookup_pair (by decide)).2, getStr_eq_some.mpr (lookup_pair (by decide)).1,
    getStr_eq_some.mpr (lookup_pair (by decide)).2⟩

theorem solid_setMessage :
    solid (setMessage path value ts) = solid path + solid value + solid ts + 61 := by
  have before : solid "\x7b\"action\": \"set\", \"data\": \x7b\"path\":\"" = 32 := by decide
  have between : solid "\", \"dp\":\x7b\"value\":\"" = 17 := by decide
  have more : solid "\", \"ts\":\"" = 8 := by decide
  have after : solid "\"\x7d\x7d\x7d" = 4 := by decide
  delta setMessage
  simp only [solid_append, before, between, more, after]
  omega

theorem solid_text {w : Raw} {s : Str} (read : w.value = .str s) :
    ∃ es, unquote es = s ∧ solid s + escapes es + 2 ≤ solid w.render := by
  obtain ⟨es, rfl, rfl⟩ := value_eq_str read
  have kept := solid_unquote es
  have text : solid (Raw.str es).render = solid (renderElems es) + 2 := solid_quoted es
  exact ⟨es, rfl, by omega⟩

theorem plain_of_tellsSet (tells : TellsSet (setMessage path value ts) path value ts) :
    PlainText path ∧ PlainText value := by
  obtain ⟨messageMap, data, dp, decoded, action, dataAt, pathAt, dpAt, valueAt, tsAt⟩ := tells
  simp only [unmarshalMap] at decoded
  split at decoded
  · next w parsed =>
    split_ifs at decoded
    cases decoded
    have kept := parseAll_solid parsed
    rw [solid_setMessage] at kept
    cases w with
    | obj =>
      obtain ⟨actionRaw, dataRaw, actionRead, dataRead, top⟩ :=
        solid_lookups (by decide) (getStr_eq_some.mp action) dataAt
      obtain ⟨dataMs, rfl, rfl⟩ := value_eq_obj dataRead
      obtain ⟨pathRaw, dpRaw, pathRead, dpRead, middle⟩ :=
        solid_lookups (by decide) (getStr_eq_some.mp pathAt) dpAt
      obtain ⟨dpMs, rfl, rfl⟩ := value_eq_obj dpRead
      rcases solid_lookups (by decide) (getStr_eq_some.mp valueAt)
        (getStr_eq_some.mp tsAt) with ⟨valueRaw, tsRaw, valueRead, tsRead, bottom⟩
      obtain ⟨_, _, actionText⟩ := solid_text actionRead
      obtain ⟨pathElems, rfl, pathText⟩ := solid_text pathRead
      obtain ⟨valueElems, rfl, valueText⟩ := solid_text valueRead
      obtain ⟨_, _, tsText⟩ := solid_text tsRead
      have names : solid "action" = 6 ∧ solid "set" = 3 ∧
          solid "data" = 4 ∧ solid "path" = 4 ∧ solid "dp" = 2 ∧
          solid "value" = 5 ∧ solid "ts" = 2 := by decide
      exact ⟨plainText_of_escapes (by omega), plainText_of_escapes (by omega)⟩
    | null | bool | num | str | arr => cases dataAt
  · cases decoded

theorem tellsSet_iff (plainTs : PlainText ts) :
    TellsSet (setMessage path value ts) path value ts ↔ PlainText path ∧ PlainText value := by
  constructor
  · exact plain_of_tellsSet
  · intro plain
    exact tellsSet_of_plain plain.1 plain.2 plainTs

theorem quote_mem_marshal (p : Str × Value) (m : Map Value) :
    '"' ∈ (Value.obj (p :: m)).marshal := by
  rw [marshal_eq_render, Value.raw]
  cases sorted : sortKeys (rawMembers (p :: m)) with
  | nil =>
    have length := length_insertionSort (fun p q : Str × Raw => p.1 ≤ q.1)
      (rawMembers (p :: m))
    rw [show insertionSort _ _ = [] from sorted, rawMembers_eq] at length
    cases length
  | cons => simp [Raw.render, quoted]

theorem plainText_iff {v : Value} {text : Str} (written : writeText v = some text) :
    PlainText text ↔ PlainValue v := by
  cases v with
  | str =>
    cases written
    exact Iff.rfl
  | obj m =>
    cases written
    cases m with
    | nil => exact iff_of_true (by decide) rfl
    | cons p m =>
      refine iff_of_false ?_ (cons_ne_nil p m)
      intro plain
      exact absurd (plain _ (quote_mem_marshal p m)) (by decide)
  | null | bool | num | arr => cases written

section Arrival

variable {env : Env} {requestMap : Map Value} {mgr : Manager} {now path text : Str}

theorem writeValue_eq {value : Value} (written : writeText value = some text) :
    writeValue env path value = (do
      Act.emitAll ((env.setVehicleData path text).2.map Effect.toFeeder)
      return (env.setVehicleData path text).1) := by
  cases value with
  | str | obj =>
    cases written
    rfl
  | null | bool | num | arr => cases written

theorem writeValue_of_none {value : Value} (unwritten : writeText value = none) :
    writeValue env path value = return [] := by
  cases value with
  | str | obj => cases unwritten
  | null | bool | num | arr => rfl

theorem handleServiceSet_effects
    (backend : env.setVehicleData = setThroughFeeder now) (given : now ≠ [])
    (named : getStr requestMap "path" = some path)
    (written : writeText (fieldOf requestMap "value") = some text) :
    (handleServiceSet env requestMap mgr).effects = [.toFeeder (setMessage path text now),
        .dataChan (set "ts" (.str now) (buildServiceResponseMap env requestMap))] := by
  simp only [handleServiceSet, named, writeValue_eq written, backend, setThroughFeeder]
  rw [Act.bind_of_some _ _ now rfl, if_neg given]
  rfl

theorem arrivesIntact_iff (backend : env.setVehicleData = setThroughFeeder now) (given : now ≠ [])
    (named : getStr requestMap "path" = some path)
    (written : writeText (fieldOf requestMap "value") = some text) :
    ArrivesIntact env requestMap mgr path text ↔
      TellsSet (setMessage path text now) path text now := by
  have effects := @handleServiceSet_effects env requestMap mgr now path text backend given named
    written
  have stamped : getStr (set "ts" (.str now) (buildServiceResponseMap env requestMap)) "ts" =
      some now := getStr_eq_some.mpr (by rw [lookup_set, if_pos rfl])
  constructor
  · rintro ⟨message, responseMap, ts, sent, read, tells⟩
    rw [effects] at sent
    cases sent
    cases stamped.symm.trans read
    exact tells
  · intro tells
    exact ⟨_, _, now, effects, stamped, tells⟩

/-- A value arrives at the feeder exactly when neither path nor value has a quote, a backslash or a
control character. -/
theorem set_arrives_intact_iff (backend : env.setVehicleData = redisBackendSet now ∨
      env.setVehicleData = memcacheBackendSet now)
    (time : IsRfcTime now) (named : getStr requestMap "path" = some path)
    (written : writeText (fieldOf requestMap "value") = some text) :
    ArrivesIntact env requestMap mgr path text ↔
      PlainText path ∧ PlainValue (fieldOf requestMap "value") := by
  have through : env.setVehicleData = setThroughFeeder now := by
    obtain redis | memcache := backend
    · exact redis
    · exact memcache
  calc
    ArrivesIntact env requestMap mgr path text ↔
        TellsSet (setMessage path text now) path text now :=
      arrivesIntact_iff through time.1 named written
    _ ↔ PlainText path ∧ PlainText text := tellsSet_iff time.plain
    _ ↔ PlainText path ∧ PlainValue (fieldOf requestMap "value") := by rw [plainText_iff written]

def redisEnv : Env := { sampleEnv with setVehicleData := redisBackendSet sampleEnv.rfcTime }

def setSpeed (value : Value) : Map Value :=
  request "set" [("path", .str "Vehicle.Speed"), ("value", value)]

theorem set_arrives_number :
    ArrivesIntact redisEnv (setSpeed (.str "50")) {} "Vehicle.Speed" "50" := by
  rw [set_arrives_intact_iff (.inl rfl) (by decide) (by decide) (by decide)]
  exact ⟨by decide, (by decide : PlainText "50")⟩

/-- A value with a quote is answered with a time stamp, but the feeder gets no JSON. -/
theorem set_not_intact : (∃ message responseMap,
      (handleServiceSet redisEnv (setSpeed (.str "a\"b")) {}).effects =
          [.toFeeder message, .dataChan responseMap] ∧
        getStr responseMap "ts" = some "T".toList ∧ unmarshalMap message = none) ∧
      ¬ ArrivesIntact redisEnv (setSpeed (.str "a\"b")) {} "Vehicle.Speed" "a\"b" ∧
      ¬ ArrivesIntact redisEnv (setSpeed (.obj [("a", .str "1")])) {} "Vehicle.Speed"
        "\x7b\"a\":\"1\"\x7d" := by
  refine ⟨?_, ?_, ?_⟩
  · exact ⟨_, _, handleServiceSet_effects rfl (by decide) rfl rfl, by decide, by decide +kernel⟩
  · rw [arrivesIntact_iff rfl (by decide) (by decide) (by decide)]
    intro tells
    exact absurd (plain_of_tellsSet tells).2 (by decide)
  · rw [arrivesIntact_iff rfl (by decide) (by decide) (by decide)]
    intro tells
    exact absurd (plain_of_tellsSet tells).2 (by decide)

end Arrival

end Vissr.ServiceMgr
