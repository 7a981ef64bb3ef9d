import Vissr.Common
import Vissr.Token.Jwt

/-! Access grant tokens and proofs of possession (`utils/datatypes.go`, `utils/cryptoutils.go`). -/

namespace Vissr.Token

open Json

def tokenFields : List (Json.Field JsonWebToken) :=
  [⟨"Header", fun w t => (decodeStr w t.header).map fun s => { t with header := s }⟩,
   ⟨"Payload", fun w t => (decodeStr w t.payload).map fun s => { t with payload := s }⟩,
   ⟨"EncodedHeader", fun w t =>
      (decodeStr w t.encodedHeader).map fun s => { t with encodedHeader := s }⟩,
   ⟨"EncodedPayload", fun w t =>
      (decodeStr w t.encodedPayload).map fun s => { t with encodedPayload := s }⟩,
   ⟨"EncodedSignature", fun w t =>
      (decodeStr w t.encodedSignature).map fun s => { t with encodedSignature := s }⟩]

structure ExtendedJwt where
  token : JsonWebToken := {}
  headerClaims : Map Str := []
  payloadClaims : Map Str := []
  deriving DecidableEq

namespace ExtendedJwt

def fields : List (Json.Field ExtendedJwt) :=
  [⟨"Token", fun w e => (decodeStruct tokenFields w e.token).map fun t => { e with token := t }⟩,
   ⟨"HeaderClaims", fun w e =>
      (decodeStrMap w e.headerClaims).map fun m => { e with headerClaims := m }⟩,
   ⟨"PayloadClaims", fun w e =>
      (decodeStrMap w e.payloadClaims).map fun m => { e with payloadClaims := m }⟩]

/-- The claims of the token are added to those that are there already. -/
def decodeFromFull (input : Str) (ext : ExtendedJwt) : Option ExtendedJwt :=
  (JsonWebToken.decodeFromFull input).bind fun token =>
    (parseAll token.header).bind fun header =>
      (decodeStrMap header ext.headerClaims).bind fun headerClaims =>
        (parseAll token.payload).bind fun payload =>
          (decodeStrMap payload ext.payloadClaims).map fun payloadClaims =>
            { token, headerClaims, payloadClaims }

end ExtendedJwt

structure JsonWebKey where
  thumb : Str := []
  type : Str := []
  use : Str := []
  pubMod : Str := []
  pubExp : Str := []
  curve : Str := []
  xcoord : Str := []
  ycoord : Str := []
  deriving DecidableEq

namespace JsonWebKey

/-- The thumbprint is not part of the text. -/
def fields : List (Json.Field JsonWebKey) :=
  [⟨"kty", fun w k => (decodeStr w k.type).map fun s => { k with type := s }⟩,
   ⟨"use", fun w k => (decodeStr w k.use).map fun s => { k with use := s }⟩,
   ⟨"n", fun w k => (decodeStr w k.pubMod).map fun s => { k with pubMod := s }⟩,
   ⟨"e", fun w k => (decodeStr w k.pubExp).map fun s => { k with pubExp := s }⟩,
   ⟨"crv", fun w k => (decodeStr w k.curve).map fun s => { k with curve := s }⟩,
   ⟨"x", fun w k => (decodeStr w k.xcoord).map fun s => { k with xcoord := s }⟩,
   ⟨"y", fun w k => (decodeStr w k.ycoord).map fun s => { k with ycoord := s }⟩]

def genThumbprint (crypto : Crypto) (key : JsonWebKey) : Str :=
  let text : Str :=
    if key.type = "RSA" then
      jsonRecursiveMarshall "n" key.pubMod
        (jsonRecursiveMarshall "kty" key.type (jsonRecursiveMarshall "e" key.pubExp []))
    else if key.type = "EC" then
      jsonRecursiveMarshall "y" key.ycoord
        (jsonRecursiveMarshall "x" key.xcoord
          (jsonRecursiveMarshall "kty" key.type (jsonRecursiveMarshall "crv" key.curve [])))
    else []
  base64Encode (crypto.sha256 text)

/-- The members the type of the key requires are there. -/
def complete (key : JsonWebKey) : Bool :=
  if key.type = "RSA" then key.pubMod ≠ [] && key.pubExp ≠ []
  else if key.type = "EC" then key.curve ≠ [] && key.xcoord ≠ [] && key.ycoord ≠ []
  else false

def unmarshall (crypto : Crypto) (rcv : Str) (key : JsonWebKey) : Option JsonWebKey :=
  (parseAll rcv).bind fun w =>
    (decodeStruct fields w key).bind fun key =>
      if key.complete then some { key with thumb := genThumbprint crypto key } else none

end JsonWebKey

structure PopToken where
  headerClaims : Map Str := []
  payloadClaims : Map Str := []
  jwk : JsonWebKey := {}
  jwt : JsonWebToken := {}
  deriving DecidableEq

/-- A claim that is not a string keeps its JSON text. -/
def rawMessageToClaim : Raw → Str
  | .str es => unquote es
  | .null => []
  | w => w.render

/-- A `map[string]json.RawMessage`. -/
def decodeRawMap : Raw → Option (Map Raw)
  | .obj ms => some (mapOf (ms.map fun p => (unquote p.1, p.2)))
  | .null => some []
  | _ => none

namespace PopToken

def fields : List (Json.Field PopToken) := [⟨"HeaderClaims", fun w p =>
      (decodeStrMap w p.headerClaims).map fun m => { p with headerClaims := m }⟩,
   ⟨"PayloadClaims", fun w p =>
      (decodeStrMap w p.payloadClaims).map fun m => { p with payloadClaims := m }⟩,
   ⟨"Jwk", fun w p => (decodeStruct JsonWebKey.fields w p.jwk).map fun k => { p with jwk := k }⟩,
   ⟨"Jwt", fun w p => (decodeStruct tokenFields w p.jwt).map fun t => { p with jwt := t }⟩]

/-- The claims of the header; the key keeps the text it has. -/
def headerClaimsOf (headerMap : Map Raw) : Map Str :=
  let claims := headerMap.map fun p => (p.1, rawMessageToClaim p.2)
  match headerMap.lookup "jwk".toList with
  | some rawJwk => set "jwk" rawJwk.render claims
  | none => claims

variable (crypto : Crypto)

def unmarshal (token : Str) (pop : PopToken) : Option PopToken :=
  (JsonWebToken.decodeFromFull token).bind fun jwt =>
    ((parseAll jwt.header).bind decodeRawMap).bind fun headerMap =>
      let headerClaims := headerClaimsOf headerMap
      (if claim headerClaims "jwk" = [] then some pop.jwk
       else pop.jwk.unmarshall crypto (claim headerClaims "jwk")).bind fun jwk =>
        ((parseAll jwt.payload).bind decodeRawMap).map fun payloadMap =>
          { headerClaims
            payloadClaims := payloadMap.map fun p => (p.1, rawMessageToClaim p.2)
            jwk
            jwt }

def checkThumb (thumbprint : Str) (pop : PopToken) : Bool :=
  thumbprint ≠ [] && thumbprint = pop.jwk.thumb

def checkAud (aud : Str) (pop : PopToken) : Bool := claim pop.payloadClaims "aud" = aud

variable (pop : PopToken)

def checkRsa : Bool :=
  match base64Decode pop.jwk.pubMod, base64Decode pop.jwk.pubExp,
      base64Decode pop.jwt.encodedSignature with
  | some n, some e, some signature => crypto.rsaVerify n e pop.jwt.signed signature
  | _, _, _ => false

def checkEcdsa : Bool :=
  if pop.jwk.curve = "P-256" then
    match base64Decode pop.jwk.xcoord, base64Decode pop.jwk.ycoord,
        base64Decode pop.jwt.encodedSignature with
    | some x, some y, some signature =>
      signature.length = 64 &&
        crypto.ecdsaVerify x y pop.jwt.signed (signature.take 32) (signature.drop 32)
    | _, _, _ => false
  else false

def checkSignature : Bool :=
  if claim pop.headerClaims "alg" = "RS256" then pop.checkRsa crypto
  else if claim pop.headerClaims "alg" = "ES256" then pop.checkEcdsa crypto
  else false

def checkIat (now : Time) (gap lifetime : Int) (pop : PopToken) : Bool :=
  match atoi (claim pop.payloadClaims "iat") with
  | some iat => decide (now.sec < wrap64 (iat + gap + lifetime)) && decide (wrap64 (iat - gap) < now.sec)
  | none => false

end PopToken

end Vissr.Token
