import Vissr.Json.RoundTrip

/-! `json.Unmarshal` into structs: which field a key is stored in, and what a value does to it. -/

namespace Vissr.Json

/-- Names are compared without regard to case; two more characters fold. -/
def foldChar (c : Char) : Char :=
  if 'A' ≤ c ∧ c ≤ 'Z' then Char.ofNat (c.toNat + 32)
  else if c = '\u212A' then 'k'
  else if c = '\u017F' then 's'
  else c

def foldName (s : Str) : Str := s.map foldChar

structure Field (σ : Type) where
  name : Str
  decode : Raw → σ → Option σ

variable {σ : Type} (fields : List (Field σ))

/-- A field with exactly the name, else one that differs in case. -/
def findField (key : Str) : Option (Field σ) := (fields.find? fun f => f.name = key).or
    (fields.find? fun f => foldName f.name = foldName key)

def decodeMember (value : σ) (member : List Elem × Raw) : Option σ :=
  match findField fields (unquote member.1) with
  | some f => f.decode member.2 value
  | none => some value

/-- The members of an object stored one after the other. -/
def decodeStruct : Raw → σ → Option σ
  | .obj ms, value => ms.foldlM (decodeMember fields) value
  | .null, value => some value
  | _, _ => none

def decodeStr : Raw → Str → Option Str
  | .str es, _ => some (unquote es)
  | .null, old => some old
  | _, _ => none

def decodeStrMember (m : Map Str) (member : List Elem × Raw) : Option (Map Str) :=
  match member.2 with
  | .str es => some (set (unquote member.1) (unquote es) m)
  | .null => some (set (unquote member.1) [] m)
  | _ => none

/-- A `map[string]string`: the members are added to those it has. -/
def decodeStrMap : Raw → Map Str → Option (Map Str)
  | .obj ms, old => ms.foldlM decodeStrMember old
  | .null, _ => some []
  | _, _ => none

/-- The zero value is what a missing key reads as. -/
def claim (m : Map Str) (k : Str) : Str := (m.lookup k).getD []

end Vissr.Json
