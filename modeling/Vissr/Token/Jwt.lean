import Vissr.Bytes
import Vissr.Json.Struct

/-! JSON web tokens and their claims (`utils/datatypes.go`, `utils/common.go`). -/

namespace Vissr.Token

open Json List Nat Raw

/-- The cryptography and the number formatting of the Go library. -/
structure Crypto where
  /-- HMAC-SHA256 of a message under a key -/
  hmac : Str → Str → Bytes
  hmac_bytes : ∀ key message, AreBytes (hmac key message)
  sha256 : Str → Bytes
  /-- PKCS #1 v1.5 with SHA-256: modulus, exponent, message and signature -/
  rsaVerify : Bytes → Bytes → Str → Bytes → Bool
  /-- P-256 with SHA-256: two coordinates, message, and the halves of a signature -/
  ecdsaVerify : Bytes → Bytes → Str → Bytes → Bytes → Bool
  /-- the text `strconv` makes of the `float64` a literal stands for -/
  formatFloat : NumLit → Str

structure JsonWebToken where
  header : Str := []
  payload : Str := []
  encodedHeader : Str := []
  encodedPayload : Str := []
  encodedSignature : Str := []
  deriving DecidableEq

/-- The first character of a value that is taken for JSON already. -/
def startsJson (value : Str) : Bool := hasPrefix value ['\x7b'] || hasPrefix value ['[']

def mustJsonString (s : Str) : Str := quoted (encodeString s)

def jsonRecursiveMarshall (key value jplain : Str) : Str :=
  if key = [] ∨ value = [] then jplain
  else
    let encodedKey := mustJsonString key
    let encodedValue := if startsJson value then value else mustJsonString value
    if jplain = [] then '\x7b' :: encodedKey ++ ':' :: encodedValue ++ ['\x7d']
    else if jplain.getLast? = some '\x7d' then
      jplain.dropLast ++ ',' :: encodedKey ++ ':' :: encodedValue ++ ['\x7d']
    else jplain

namespace JsonWebToken

def setHeader (algorithm : Str) (token : JsonWebToken) : JsonWebToken :=
  { token with
    header := "\x7b\"alg\":\"" ++ algorithm ++ "\",\"typ\":\"JWT\"\x7d" }

def addClaim (key value : Str) (token : JsonWebToken) : JsonWebToken :=
  { token with payload := jsonRecursiveMarshall key value token.payload }

variable (token : JsonWebToken)

def encode : JsonWebToken :=
  { token with
    encodedHeader := base64Encode (utf8Encode token.header)
    encodedPayload := base64Encode (utf8Encode token.payload) }

def signed : Str := token.encodedHeader ++ '.' :: token.encodedPayload

def symmSign (crypto : Crypto) (key : Str) (token : JsonWebToken) : JsonWebToken :=
  { token.encode with
    encodedSignature := base64Encode (crypto.hmac key token.encode.signed) }

def getFullToken : Str := token.signed ++ '.' :: token.encodedSignature

def decodeFromFull (input : Str) : Option JsonWebToken :=
  match input.splitOn '.' with
  | [encodedHeader, encodedPayload, encodedSignature] =>
    match base64Decode encodedHeader, base64Decode encodedPayload with
    | some header, some payload =>
      some
        { header := utf8Decode header
          payload := utf8Decode payload
          encodedHeader
          encodedPayload
          encodedSignature }
    | _, _ => none
  | _ => none

def extractAlg (header : Str) : Str :=
  match parseAll header with
  | some w => (decodeStruct [⟨"alg", decodeStr⟩] w []).getD []
  | none => []

/-- `CheckSignature` for a string as key: only HMAC tokens can pass. -/
def checkSignature (crypto : Crypto) (key : Str) (token : JsonWebToken) : Bool :=
  extractAlg token.header = "HS256" &&
    base64Encode (crypto.hmac key token.signed) = token.encodedSignature

end JsonWebToken

variable (crypto : Crypto)

def verifyTokenSignature (token key : Str) : Bool :=
  match JsonWebToken.decodeFromFull token with
  | some jwt => jwt.checkSignature crypto key
  | none => false

def claimText : Value → Str
  | .str s => s
  | .num lit => crypto.formatFloat lit
  | .bool true => "true"
  | .bool false => "false"
  | .null => []
  | v => v.marshal

def lookupClaim (segment claim : Str) : Option Str :=
  match base64Decode segment with
  | some raw =>
    match unmarshalMap (utf8Decode raw) with
    | some m => (m.lookup claim).map (claimText crypto)
    | none => none
  | none => none

/-- A claim of a token: the header is searched before the payload. -/
def extractFromToken (token claim : Str) : Str :=
  match token.splitOn '.' with
  | [header, payload, _] =>
    ((lookupClaim crypto header claim).or (lookupClaim crypto payload claim)).getD []
  | _ => []

def claimMember (c : Str × Str) : List Elem × Raw := (encodeString c.1, .str (encodeString c.2))

theorem renderMore_append (ms : List (List Elem × Raw)) :
    ∃ body, renderMore ms = body ++ ['\x7d'] ∧ ∀ m : List Elem × Raw,
      renderMore (ms ++ [m]) = body ++ ',' :: quoted m.1 ++ ':' :: m.2.render ++ ['\x7d'] := by
  induction ms with
  | nil => exact ⟨[], rfl, fun m => by simp [renderMore]⟩
  | cons p ms ih =>
    obtain ⟨k, v⟩ := p
    obtain ⟨body, same, more⟩ := ih
    refine ⟨',' :: quoted k ++ ':' :: v.render ++ body, ?_, ?_⟩
    · rw [renderMore, same]
      simp
    · intro m
      rw [cons_append, renderMore, more m]
      simp

theorem jsonRecursiveMarshall_append (key value text : Str) (named : key ≠ []) (kept : value ≠ [])
    (plain : startsJson value = false) : jsonRecursiveMarshall key value (text ++ ['\x7d']) =
      text ++ ',' :: mustJsonString key ++ ':' :: mustJsonString value ++ ['\x7d'] := by
  have open_ : text ++ ['\x7d'] ≠ [] := by simp
  rw [jsonRecursiveMarshall, if_neg (by simp [named, kept])]
  simp only [plain, Bool.false_eq_true, if_false]
  rw [if_neg open_, if_pos getLast?_concat, dropLast_concat]

theorem jsonRecursiveMarshall_object (m : List Elem × Raw) (ms : List (List Elem × Raw))
    (c : Str × Str) (key : c.1 ≠ []) (value : c.2 ≠ []) (text : startsJson c.2 = false) :
    jsonRecursiveMarshall c.1 c.2 (obj (m :: ms)).render =
      (obj (m :: ms ++ [claimMember c])).render := by
  obtain ⟨k, v⟩ := m
  obtain ⟨body, same, more⟩ := renderMore_append ms
  have before : (obj ((k, v) :: ms)).render =
      ('\x7b' :: quoted k ++ ':' :: v.render ++ body) ++ ['\x7d'] := by
    rw [render, same]
    simp
  have after : (obj ((k, v) :: ms ++ [claimMember c])).render =
      '\x7b' :: quoted k ++ ':' :: v.render ++ (body ++ ',' :: quoted (claimMember c).1 ++
        ':' :: (claimMember c).2.render ++ ['\x7d']) := by
    rw [cons_append, render, more (claimMember c)]
  rw [before, after, jsonRecursiveMarshall_append _ _ _ key value text]
  simp [mustJsonString, claimMember, render]

theorem jsonRecursiveMarshall_first (c : Str × Str) (key : c.1 ≠ []) (value : c.2 ≠ [])
    (text : startsJson c.2 = false) :
    jsonRecursiveMarshall c.1 c.2 [] = (obj [claimMember c]).render := by
  rw [jsonRecursiveMarshall, if_neg (by simp [key, value])]
  simp [text, mustJsonString, claimMember, render, renderMore]

theorem jsonRecursiveMarshall_empty (key jplain : Str) :
    jsonRecursiveMarshall key [] jplain = jplain := by
  simp [jsonRecursiveMarshall]

variable (claims : List (Str × Str))

def addClaims (token : JsonWebToken) : JsonWebToken :=
  claims.foldl (fun token c => token.addClaim c.1 c.2) token

theorem addClaims_header (token : JsonWebToken) :
    (addClaims claims token).header = token.header := by
  induction claims generalizing token with
  | nil => rfl
  | cons c claims ih => exact ih _

/-- The claims whose text is kept: a claim without one is left out. -/
def keptClaims : List (Str × Str) := claims.filter fun c => c.2 ≠ []

/-- No claim looks like JSON, and every one has a name. -/
def PlainClaims : Prop := ∀ c ∈ claims, c.1 ≠ [] ∧ startsJson c.2 = false

open JsonWebToken

theorem addClaims_payload_from (plain : PlainClaims claims)
    (m : List Elem × Raw) (ms : List (List Elem × Raw)) (token : JsonWebToken)
    (start : token.payload = (obj (m :: ms)).render) : (addClaims claims token).payload =
      (obj (m :: ms ++ (keptClaims claims).map claimMember)).render := by
  induction claims generalizing token ms with
  | nil => simpa [addClaims, keptClaims] using start
  | cons c claims ih =>
    have here := plain c mem_cons_self
    have rest : PlainClaims claims := fun c mem => plain c (mem_cons_of_mem _ mem)
    by_cases empty : c.2 = []
    · have next := ih rest ms (token.addClaim c.1 c.2) (by
        rw [addClaim, empty, jsonRecursiveMarshall_empty]
        exact start)
      rw [addClaims, foldl_cons]
      refine Eq.trans next ?_
      simp [keptClaims, empty]
    · have next := ih rest (ms ++ [claimMember c]) (token.addClaim c.1 c.2) (by
        rw [addClaim]
        simp only
        rw [start, jsonRecursiveMarshall_object m ms c here.1 empty here.2, cons_append])
      rw [addClaims, foldl_cons]
      refine Eq.trans next ?_
      simp [keptClaims, empty]

theorem addClaims_payload (first : Str × Str) (claims : List (Str × Str))
    (kept : first.2 ≠ []) (plain : PlainClaims (first :: claims)) (token : JsonWebToken)
    (start : token.payload = []) : (addClaims (first :: claims) token).payload =
      (obj ((keptClaims (first :: claims)).map claimMember)).render := by
  have here := plain first mem_cons_self
  have rest : PlainClaims claims := fun c mem => plain c (mem_cons_of_mem _ mem)
  have next := addClaims_payload_from claims rest (claimMember first) []
    (token.addClaim first.1 first.2) (by
      rw [addClaim]
      simp only
      rw [start, jsonRecursiveMarshall_first first here.1 kept here.2])
  rw [addClaims, foldl_cons]
  refine Eq.trans next ?_
  simp [keptClaims, kept]

variable (claims : List (Str × Str))

theorem claims_nesting : (obj (claims.map claimMember)).nesting ≤ maxNestingDepth := by
  have flat := nestingMembers_le (claims.map claimMember) 0 (by
    intro p mem
    obtain ⟨c, -, rfl⟩ := mem_map.mp mem
    exact le_refl _)
  rw [nesting]
  exact succ_le_of_lt (lt_of_le_of_lt flat (by decide))

theorem claims_values :
    valueMembers (claims.map claimMember) = claims.map fun c => (c.1, Value.str c.2) := by
  simp [valueMembers_eq, claimMember, Function.comp_def, value, unquote_encodeString]

theorem claims_inRange : inRangeMembers (claims.map claimMember) = true := by
  rw [inRangeMembers_iff, forall_mem_map]
  exact fun _ _ => rfl

theorem unmarshalMap_claims : unmarshalMap (obj (claims.map claimMember)).render =
      some (mapOf (claims.map fun c => (c.1, Value.str c.2))) := by
  rw [unmarshalMap, parseAll_render _ (claims_nesting claims)]
  simp [toMap, claims_inRange, claims_values]

theorem lookup_claims (distinct : Distinct claims) (name : Str) :
    (mapOf (claims.map fun c => (c.1, Value.str c.2))).lookup name =
      (claims.lookup name).map Value.str := by
  rw [lookup_mapOf, ← map_reverse, lookup_map, ← lookup_perm _ _ distinct (reverse_perm _).symm]

theorem distinct_keptClaims (distinct : Distinct claims) : Distinct (keptClaims claims) :=
  (filter_sublist.map Prod.fst).nodup distinct

theorem lookup_keptClaims (distinct : Distinct claims) (name : Str) :
    ((keptClaims claims).lookup name).getD [] = (claims.lookup name).getD [] := by
  have kept := distinct_keptClaims claims distinct
  cases found : claims.lookup name with
  | none =>
    have absent : (keptClaims claims).lookup name = none := by
      apply Option.eq_none_iff_forall_not_mem.mpr
      intro value member
      have inside := mem_of_lookup _ _ _ member
      have listed := (lookup_eq_some_iff claims distinct name value).mpr
        (mem_of_mem_filter inside)
      rw [found] at listed
      cases listed
    rw [absent]
  | some value =>
    have member := mem_of_lookup _ _ _ found
    by_cases empty : value = []
    · subst empty
      cases again : (keptClaims claims).lookup name with
      | none => rfl
      | some other =>
        have inside := mem_of_mem_filter (mem_of_lookup _ _ _ again)
        have same := (lookup_eq_some_iff claims distinct name other).mpr inside
        rw [found] at same
        cases same
        rfl
    · have inside : (name, value) ∈ keptClaims claims :=
        mem_filter.mpr ⟨member, by simpa using empty⟩
      rw [(lookup_eq_some_iff _ kept name value).mpr inside]

variable (crypto : Crypto) (key : Str) (token : JsonWebToken)

theorem base64Encode_dotFree (bytes : Bytes) (are : AreBytes bytes) : '.' ∉ base64Encode bytes :=
  fun mem => (base64Encode_char bytes are '.' mem).2.2.1 rfl

theorem splitOn_fullToken : (token.symmSign crypto key).getFullToken.splitOn '.' =
      [base64Encode (utf8Encode token.header), base64Encode (utf8Encode token.payload),
        base64Encode (crypto.hmac key token.encode.signed)] := by
  have dotFree : ∀ part ∈ [base64Encode (utf8Encode token.header),
      base64Encode (utf8Encode token.payload),
      base64Encode (crypto.hmac key token.encode.signed)], '.' ∉ part := by
    simp only [forall_mem_cons]
    exact ⟨base64Encode_dotFree _ (utf8Encode_bytes _), base64Encode_dotFree _ (utf8Encode_bytes _),
      base64Encode_dotFree _ (crypto.hmac_bytes _ _), fun _ mem => by cases mem⟩
  have parts := splitOn_intercalate '.' dotFree (cons_ne_nil _ _)
  have text : (token.symmSign crypto key).getFullToken = ['.'].intercalate
      [base64Encode (utf8Encode token.header), base64Encode (utf8Encode token.payload),
        base64Encode (crypto.hmac key token.encode.signed)] := by
    simp [getFullToken, signed, symmSign,
      encode, intercalate, intersperse]
  rw [text, parts]

theorem afterLast_fullToken : afterLast '.' (token.symmSign crypto key).getFullToken =
      some (base64Encode (crypto.hmac key token.encode.signed)) :=
  afterLast_append '.' _ _ (base64Encode_dotFree _ (crypto.hmac_bytes _ _))

theorem lookupClaim_encoded (text claim : Str) :
    lookupClaim crypto (base64Encode (utf8Encode text)) claim =
      (unmarshalMap text).bind fun m => (m.lookup claim).map (claimText crypto) := by
  rw [lookupClaim, base64Decode_base64Encode _ (utf8Encode_bytes text)]
  simp only [utf8Decode_utf8Encode]
  cases unmarshalMap text <;> rfl

theorem lookupClaim_claims (claims : List (Str × Str)) (distinct : Distinct claims) (claim : Str) :
    (lookupClaim crypto (base64Encode (utf8Encode
      (obj ((keptClaims claims).map claimMember)).render)) claim).getD [] =
      (claims.lookup claim).getD [] := by
  have kept := distinct_keptClaims claims distinct
  rw [lookupClaim_encoded, unmarshalMap_claims, Option.bind_some, lookup_claims _ kept,
    Option.map_map]
  have text : claimText crypto ∘ Value.str = id := rfl
  rw [text, Option.map_id, id, lookup_keptClaims claims distinct claim]

theorem extractFromToken_signed (claim : Str)
    (absent : lookupClaim crypto (base64Encode (utf8Encode token.header)) claim = none) :
    extractFromToken crypto (token.symmSign crypto key).getFullToken claim =
      (lookupClaim crypto (base64Encode (utf8Encode token.payload)) claim).getD [] := by
  rw [extractFromToken, splitOn_fullToken]
  simp only [absent, Option.none_or]

theorem verifyTokenSignature_signed (algorithm : extractAlg token.header = "HS256") :
    verifyTokenSignature crypto (token.symmSign crypto key).getFullToken key = true := by
  have decoded : decodeFromFull (token.symmSign crypto key).getFullToken =
      some (token.symmSign crypto key) := by
    rw [decodeFromFull, splitOn_fullToken]
    simp only [base64Decode_base64Encode _ (utf8Encode_bytes _), utf8Decode_utf8Encode]
    rfl
  rw [verifyTokenSignature, decoded]
  simp only [checkSignature, Bool.and_eq_true, decide_eq_true_eq]
  exact ⟨algorithm, rfl⟩

end Vissr.Token
