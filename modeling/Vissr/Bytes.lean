import Vissr.Text

/-! Bytes behind strings: UTF-8, and the unpadded URL alphabet of base64. -/

namespace Vissr

open List Option Nat

abbrev Bytes := List Nat

variable (bytes : Bytes)

def AreBytes : Prop := ∀ b ∈ bytes, b < 256

variable (c : Char)

def utf8Char : Bytes :=
  let n := c.toNat
  if n < 0x80 then [n]
  else if n < 0x800 then [0xC0 + n / 64, 0x80 + n % 64]
  else if n < 0x10000 then [0xE0 + n / 4096, 0x80 + n / 64 % 64, 0x80 + n % 64]
  else [0xF0 + n / 262144, 0x80 + n / 4096 % 64, 0x80 + n / 64 % 64, 0x80 + n % 64]

variable (s : Str)

def utf8Encode : Bytes := s.flatMap utf8Char

def isTail (b : Nat) : Bool := decide (0x80 ≤ b) && decide (b < 0xC0)

def isSurrogate (n : Nat) : Bool := decide (0xD800 ≤ n) && decide (n < 0xE000)

def decodeTwo (a b : Nat) : Option Nat :=
  if isTail b && decide (0x80 ≤ (a - 0xC0) * 64 + (b - 0x80)) then
    some ((a - 0xC0) * 64 + (b - 0x80))
  else none

def decodeThree (a b c : Nat) : Option Nat :=
  let n := ((a - 0xE0) * 64 + (b - 0x80)) * 64 + (c - 0x80)
  if isTail b && isTail c && decide (0x800 ≤ n) && !isSurrogate n then some n else none

def decodeFour (a b c d : Nat) : Option Nat :=
  let n := (((a - 0xF0) * 64 + (b - 0x80)) * 64 + (c - 0x80)) * 64 + (d - 0x80)
  if isTail b && isTail c && isTail d && decide (0x10000 ≤ n) && decide (n < 0x110000) then some n
  else none

/-- The first character and its width. A byte that starts none is U+FFFD. -/
def decodeRune : Char × Nat :=
  let rune : Option (Nat × Nat) :=
    match bytes with
    | [] => none
    | a :: rest =>
      if a < 0x80 then some (a, 1)
      else if a < 0xC0 then none
      else if a < 0xE0 then
        match rest with
        | b :: _ => (decodeTwo a b).map (·, 2)
        | _ => none
      else if a < 0xF0 then
        match rest with
        | b :: c :: _ => (decodeThree a b c).map (·, 3)
        | _ => none
      else
        match rest with
        | b :: c :: d :: _ => (decodeFour a b c d).map (·, 4)
        | _ => none
  match rune with
  | some (n, width) => (Char.ofNat n, width)
  | none => ('\uFFFD', 1)

def decodeRunes : Nat → Bytes → Str
  | 0, _ => []
  | _, [] => []
  | fuel + 1, bytes => (decodeRune bytes).1 :: decodeRunes fuel (bytes.drop (decodeRune bytes).2)

def utf8Decode : Str := decodeRunes bytes.length bytes

theorem char_bounds : c.toNat < 0x110000 ∧ isSurrogate c.toNat = false := by
  have valid := c.valid
  simp only [UInt32.isValidChar, Nat.isValidChar] at valid
  change (c.toNat < _ ∨ _ < c.toNat ∧ c.toNat < _) at valid
  simp only [isSurrogate, Bool.and_eq_false_iff, decide_eq_false_iff_not]
  omega

theorem isTail_low (n : Nat) : isTail (0x80 + n % 64) = true := by
  simp only [isTail, Bool.and_eq_true, decide_eq_true_eq]
  omega

theorem decodeRune_utf8Char (rest : Bytes) :
    decodeRune (utf8Char c ++ rest) = (c, (utf8Char c).length) := by
  obtain ⟨bound, plain⟩ := char_bounds c
  unfold utf8Char
  simp only
  split_ifs with one two three
  · simp [decodeRune, one]
  · have value : (0xC0 + c.toNat / 64 - 0xC0) * 64 + (0x80 + c.toNat % 64 - 0x80) = c.toNat := by
      omega
    have large : 0x80 ≤ c.toNat := by omega
    simp only [decodeRune, cons_append, decodeTwo, isTail_low, value, large, Bool.true_and,
      decide_true, if_true, map_some]
    rw [if_neg (by omega), if_neg (by omega), if_pos (by omega)]
    simp
  · have value : ((0xE0 + c.toNat / 4096 - 0xE0) * 64 + (0x80 + c.toNat / 64 % 64 - 0x80)) * 64 +
        (0x80 + c.toNat % 64 - 0x80) = c.toNat := by omega
    have large : 0x800 ≤ c.toNat := by omega
    simp only [decodeRune, cons_append, decodeThree, isTail_low, value, large, plain,
      Bool.true_and, decide_true, Bool.not_false, if_true, map_some]
    rw [if_neg (by omega), if_neg (by omega), if_neg (by omega), if_pos (by omega)]
    simp
  · have value : (((0xF0 + c.toNat / 262144 - 0xF0) * 64 + (0x80 + c.toNat / 4096 % 64 - 0x80)) *
        64 + (0x80 + c.toNat / 64 % 64 - 0x80)) * 64 + (0x80 + c.toNat % 64 - 0x80) =
          c.toNat := by omega
    have large : 0x10000 ≤ c.toNat := by omega
    simp only [decodeRune, cons_append, decodeFour, isTail_low, value, large, bound,
      Bool.true_and, decide_true, if_true, map_some]
    rw [if_neg (by omega), if_neg (by omega), if_neg (by omega), if_neg (by omega)]
    simp

theorem utf8Char_length : 0 < (utf8Char c).length := by
  unfold utf8Char
  simp only
  split_ifs <;> simp

theorem utf8Char_bytes : AreBytes (utf8Char c) := by
  obtain ⟨bound, -⟩ := char_bounds c
  unfold utf8Char
  simp only
  split_ifs <;> simp only [AreBytes, mem_cons, not_mem_nil, or_false] <;>
    rintro b (rfl | rfl | rfl | rfl) <;> omega

theorem utf8Encode_bytes : AreBytes (utf8Encode s) := by
  intro b mem
  obtain ⟨c, -, inside⟩ := mem_flatMap.mp mem
  exact utf8Char_bytes c b inside

theorem decodeRunes_utf8Encode (fuel : Nat) (enough : (utf8Encode s).length ≤ fuel) :
    decodeRunes fuel (utf8Encode s) = s := by
  induction s generalizing fuel with
  | nil => cases fuel <;> rfl
  | cons c s ih =>
    have text : utf8Encode (c :: s) = utf8Char c ++ utf8Encode s := rfl
    have width := utf8Char_length c
    rw [text, length_append] at enough
    obtain ⟨fuel, rfl⟩ : ∃ n, fuel = n + 1 := ⟨fuel - 1, by omega⟩
    have open_ : utf8Encode (c :: s) ≠ [] := by
      intro empty
      rw [text, append_eq_nil_iff] at empty
      rw [empty.1] at width
      exact lt_irrefl _ width
    rw [decodeRunes.eq_3 _ _ open_, text, decodeRune_utf8Char, drop_left, ih fuel (by omega)]

theorem utf8Decode_utf8Encode : utf8Decode (utf8Encode s) = s :=
  decodeRunes_utf8Encode s _ (le_refl _)

/-- The URL alphabet. -/
def base64Char (n : Nat) : Char :=
  if n < 26 then Char.ofNat ('A'.toNat + n)
  else if n < 52 then Char.ofNat ('a'.toNat + (n - 26))
  else if n < 62 then Char.ofNat ('0'.toNat + (n - 52))
  else if n = 62 then '-'
  else '_'

def base64Value : Option Nat :=
  if 'A' ≤ c ∧ c ≤ 'Z' then some (c.toNat - 'A'.toNat)
  else if 'a' ≤ c ∧ c ≤ 'z' then some (c.toNat - 'a'.toNat + 26)
  else if '0' ≤ c ∧ c ≤ '9' then some (c.toNat - '0'.toNat + 52)
  else if c = '-' then some 62
  else if c = '_' then some 63
  else none

def sextets : Bytes → List Nat
  | a :: b :: c :: rest =>
    a / 4 :: (a % 4 * 16 + b / 16) :: (b % 16 * 4 + c / 64) :: c % 64 :: sextets rest
  | [a, b] => [a / 4, a % 4 * 16 + b / 16, b % 16 * 4]
  | [a] => [a / 4, a % 4 * 16]
  | [] => []

def octets : List Nat → Option Bytes
  | w :: x :: y :: z :: rest =>
    (octets rest).map fun bytes =>
      (w * 4 + x / 16) :: (x % 16 * 16 + y / 4) :: (y % 4 * 64 + z) :: bytes
  | [w, x, y] => some [w * 4 + x / 16, x % 16 * 16 + y / 4]
  | [w, x] => some [w * 4 + x / 16]
  | [_] => none
  | [] => some []

/-- `base64.RawURLEncoding.EncodeToString`. -/
def base64Encode : Str := (sextets bytes).map base64Char

/-- `base64.RawURLEncoding.DecodeString`, which skips line ends. -/
def base64Decode : Option Bytes :=
  ((s.filter fun c => c ≠ '\r' && c ≠ '\n').mapM base64Value).bind octets

theorem base64Char_spec : ∀ n < 64, base64Value (base64Char n) = some n ∧
    base64Char n ≠ '\r' ∧ base64Char n ≠ '\n' ∧ base64Char n ≠ '.' ∧ base64Char n ≠ '\x7b' := by
  decide

theorem sextets_bound (are : AreBytes bytes) : ∀ n ∈ sextets bytes, n < 64 := by
  fun_induction sextets bytes with
  | case1 a b c rest ih =>
    simp only [AreBytes, forall_mem_cons] at are ih ⊢
    obtain ⟨first, second, third, rest⟩ := are
    exact ⟨by omega, by omega, by omega, by omega, ih rest⟩
  | case2 =>
    simp only [AreBytes, forall_mem_cons] at are ⊢
    exact ⟨by omega, by omega, by omega, nofun⟩
  | case3 =>
    simp only [AreBytes, forall_mem_cons] at are ⊢
    exact ⟨by omega, by omega, nofun⟩
  | case4 => nofun

theorem octets_sextets (are : AreBytes bytes) : octets (sextets bytes) = some bytes := by
  fun_induction sextets bytes with
  | case1 a b c rest ih =>
    simp only [AreBytes, forall_mem_cons] at are ih
    obtain ⟨first, second, third, rest⟩ := are
    rw [octets, ih rest, map_some, some.injEq, cons.injEq, cons.injEq, cons.injEq]
    exact ⟨by omega, by omega, by omega, rfl⟩
  | case2 =>
    simp only [AreBytes, forall_mem_cons] at are
    rw [octets, some.injEq, cons.injEq, cons.injEq]
    exact ⟨by omega, by omega, rfl⟩
  | case3 =>
    simp only [AreBytes, forall_mem_cons] at are
    rw [octets, some.injEq, cons.injEq]
    exact ⟨by omega, rfl⟩
  | case4 => rfl

theorem base64Encode_char (are : AreBytes bytes) (c : Char)
    (mem : c ∈ base64Encode bytes) : c ≠ '\r' ∧ c ≠ '\n' ∧ c ≠ '.' ∧ c ≠ '\x7b' := by
  obtain ⟨n, inside, rfl⟩ := mem_map.mp mem
  exact (base64Char_spec n (sextets_bound bytes are n inside)).2

theorem mapM_base64Value (ns : List Nat) (small : ∀ n ∈ ns, n < 64) :
    (ns.map base64Char).mapM base64Value = some ns := by
  induction ns with
  | nil => rfl
  | cons n ns ih =>
    rw [forall_mem_cons] at small
    rw [map_cons, mapM_cons, (base64Char_spec n small.1).1, ih small.2]
    rfl

theorem base64Decode_base64Encode (are : AreBytes bytes) :
    base64Decode (base64Encode bytes) = some bytes := by
  have noEnds : (base64Encode bytes).filter (fun c => c ≠ '\r' && c ≠ '\n') =
      base64Encode bytes := by
    rw [filter_eq_self]
    intro c mem
    obtain ⟨first, second, -⟩ := base64Encode_char bytes are c mem
    simp [first, second]
  rw [base64Decode, noEnds, base64Encode, mapM_base64Value _ (sextets_bound bytes are)]
  exact octets_sextets bytes are

end Vissr
