import Vissr.Json.Raw

/-! What `encoding/json` makes of a text, and the encoding of values. -/

namespace Vissr.Json

open List Option Function

variable {β : Type}

/-- The entries of a Go map, in the order of one iteration. -/
abbrev Map (β : Type) := List (Str × β)

variable (k : Str)

def delete (m : Map β) : Map β := m.filter fun p => p.1 ≠ k

def set (v : β) (m : Map β) : Map β := (k, v) :: delete k m

variable (ms : Map β)

def mapOf : Map β := ms.foldl (fun m p => set p.1 p.2 m) []

theorem lookup_cons (k q : Str) (v : β) (m : Map β) :
    List.lookup k ((q, v) :: m) = if k = q then some v else m.lookup k := by
  by_cases same : k = q
  · subst same
    simp
  · have differs : (k == q) = false := beq_eq_false_iff_ne.mpr same
    simp [List.lookup_cons, differs, same]

theorem lookup_delete (k k' : Str) (m : Map β) :
    (delete k m).lookup k' = if k' = k then none else m.lookup k' := by
  induction m with
  | nil => simp [delete]
  | cons p m ih =>
    obtain ⟨q, v⟩ := p
    by_cases same : q = k
    · have skip : delete k ((q, v) :: m) = delete k m := by simp [delete, same]
      rw [skip, ih, lookup_cons, same]
      split_ifs <;> rfl
    · have keep : delete k ((q, v) :: m) = (q, v) :: delete k m := by simp [delete, same]
      rw [keep, lookup_cons, lookup_cons, ih]
      by_cases hit : k' = q
      · simp [hit, same]
      · simp [hit]

@[simp] theorem lookup_set_same (v : β) (m : Map β) : (set k v m).lookup k = some v := by
  simp [set]

theorem lookup_set (k k' : Str) (v : β) (m : Map β) :
    (set k v m).lookup k' = if k' = k then some v else m.lookup k' := by
  by_cases same : k' = k
  · subst same
    simp
  · simp [set, lookup_cons, same, lookup_delete]

theorem lookup_fold (ms m : Map β) (k : Str) :
    (ms.foldl (fun m p => set p.1 p.2 m) m).lookup k = (ms.reverse.lookup k).or (m.lookup k) := by
  induction ms generalizing m with
  | nil => simp
  | cons p ms ih =>
    obtain ⟨q, v⟩ := p
    rw [foldl_cons, ih, lookup_set, reverse_cons, lookup_append]
    by_cases same : k = q
    · subst same
      cases ms.reverse.lookup k <;> simp
    · cases ms.reverse.lookup k <;> simp [lookup_cons, same]

theorem lookup_mapOf (k : Str) : (mapOf ms).lookup k = ms.reverse.lookup k := by
  rw [mapOf, lookup_fold]
  simp

theorem mem_of_lookup (m : Map β) (k : Str) (v : β) (found : m.lookup k = some v) : (k, v) ∈ m := by
  induction m with
  | nil => cases found
  | cons p m ih =>
    obtain ⟨q, u⟩ := p
    rw [lookup_cons] at found
    split_ifs at found with same
    · cases found
      rw [same]
      exact mem_cons_self
    · exact mem_cons_of_mem _ (ih found)

theorem mem_set (v : β) (m : Map β) (p : Str × β) (member : p ∈ set k v m) :
    p = (k, v) ∨ p ∈ m := by
  obtain same | member := mem_cons.mp member
  · exact .inl same
  · exact .inr (mem_of_mem_filter member)

def Distinct (m : Map β) : Prop := (m.map Prod.fst).Nodup
  deriving Decidable

theorem distinct_delete (m : Map β) (distinct : Distinct m) : Distinct (delete k m) :=
  (filter_sublist.map Prod.fst).nodup distinct

theorem distinct_set (v : β) (m : Map β) (distinct : Distinct m) : Distinct (set k v m) := by
  refine nodup_cons.mpr ⟨?_, distinct_delete k m distinct⟩
  intro mem
  obtain ⟨p, inside, same⟩ := mem_map.mp mem
  simp only [delete, mem_filter, decide_eq_true_eq] at inside
  exact inside.2 same

theorem distinct_mapOf : Distinct (mapOf ms) := by
  have fold (ms m : Map β) (distinct : Distinct m) :
      Distinct (ms.foldl (fun m p => set p.1 p.2 m) m) := by
    induction ms generalizing m with
    | nil => exact distinct
    | cons p ms ih => exact ih _ (distinct_set p.1 p.2 m distinct)
  exact fold ms [] nodup_nil

theorem lookup_eq_some_iff (m : Map β) (distinct : Distinct m) (k : Str) (v : β) :
    m.lookup k = some v ↔ (k, v) ∈ m := by
  induction m with
  | nil => simp
  | cons p m ih =>
    obtain ⟨q, u⟩ := p
    have parts := nodup_cons.mp distinct
    by_cases same : k = q
    · subst same
      have fresh : (k, v) ∉ m := fun inside => parts.1 (mem_map.mpr ⟨_, inside, rfl⟩)
      simp [fresh, eq_comm]
    · simp [lookup_cons, same, ih parts.2]

theorem lookup_perm (m m' : Map β) (distinct : Distinct m) (perm : m.Perm m') (k : Str) :
    m.lookup k = m'.lookup k := by
  have distinct' : Distinct m' := (perm.map Prod.fst).nodup_iff.mp distinct
  apply ext
  intro v
  rw [lookup_eq_some_iff m distinct, lookup_eq_some_iff m' distinct', perm.mem_iff]

theorem lookup_map {γ : Type} (f : β → γ) (m : Map β) (k : Str) :
    (m.map fun p => (p.1, f p.2)).lookup k = (m.lookup k).map f := by
  induction m with
  | nil => rfl
  | cons p m ih =>
    obtain ⟨q, v⟩ := p
    rw [map_cons, lookup_cons, lookup_cons, ih]
    split_ifs <;> rfl

theorem mem_mapOf (p : Str × β) (mem : p ∈ mapOf ms) : p ∈ ms := by
  have found := (lookup_eq_some_iff (mapOf ms) (distinct_mapOf ms) p.1 p.2).mpr mem
  rw [lookup_mapOf] at found
  exact mem_reverse.mp (mem_of_lookup ms.reverse p.1 p.2 found)

variable (fields : List Str)

def deleteAll (m : Map β) : Map β := fields.foldl (fun m field => delete field m) m

theorem lookup_deleteAll (m : Map β) (k : Str) :
    (deleteAll fields m).lookup k = if k ∈ fields then none else m.lookup k := by
  induction fields generalizing m with
  | nil => simp [deleteAll]
  | cons field fields ih =>
    have first := ih (delete field m)
    rw [lookup_delete] at first
    rw [deleteAll, foldl_cons]
    refine first.trans ?_
    by_cases same : k = field
    · simp [same]
    · simp [same]

theorem distinct_deleteAll (m : Map β) (distinct : Distinct m) : Distinct (deleteAll fields m) := by
  induction fields generalizing m with
  | nil => exact distinct
  | cons field fields ih => exact ih _ (distinct_delete field m distinct)

theorem mem_deleteAll (m : Map β) (p : Str × β) (mem : p ∈ deleteAll fields m) : p ∈ m := by
  induction fields generalizing m with
  | nil => exact mem
  | cons field fields ih => exact mem_of_mem_filter (ih _ mem)

/-- A character of a string literal, or the value of a `\u` escape. -/
inductive Code where
  | char (c : Char)
  | unit (n : Nat)
  deriving DecidableEq

variable (c : Char)

def hexValue : Nat :=
  if isDigit c then c.toNat - '0'.toNat
  else if 'a' ≤ c then c.toNat - 'a'.toNat + 10
  else c.toNat - 'A'.toNat + 10

def shortValue : Char :=
  if c = 'b' then '\x08'
  else if c = 'f' then '\x0c'
  else if c = 'n' then '\n'
  else if c = 'r' then '\r'
  else if c = 't' then '\t'
  else c

def Elem.code : Elem → Code
  | .plain c => .char c.1
  | .short c => .char (shortValue c.1)
  | .unicode a b c d =>
    .unit (((hexValue a.1 * 16 + hexValue b.1) * 16 + hexValue c.1) * 16 + hexValue d.1)

variable (n : Nat)

def isHigh : Bool := decide (0xD800 ≤ n) && decide (n < 0xDC00)
def isLow : Bool := decide (0xDC00 ≤ n) && decide (n < 0xE000)

/-- A surrogate without its partner is read as U+FFFD. -/
def unitChar : Char :=
  if isHigh n || isLow n then '\uFFFD' else Char.ofNat n

def combine : List Code → Str
  | .unit hi :: .unit lo :: codes =>
    if isHigh hi && isLow lo then
      Char.ofNat (0x10000 + (hi - 0xD800) * 0x400 + (lo - 0xDC00)) :: combine codes
    else unitChar hi :: combine (.unit lo :: codes)
  | .unit n :: codes => unitChar n :: combine codes
  | .char c :: codes => c :: combine codes
  | [] => []

def unquote (es : List Elem) : Str := combine (es.map Elem.code)

def Code.normal : Code → Code
  | .char c => .char c
  | .unit n => if isHigh n || isLow n then .unit n else .char (Char.ofNat n)

theorem combine_normal (codes : List Code) : combine (codes.map Code.normal) = combine codes := by
  fun_induction combine codes with
  | case1 hi lo codes pair ih =>
    simp only [Bool.and_eq_true] at pair
    simp [Code.normal, pair, combine, ih]
  | case2 hi lo codes pair ih =>
    simp only [Bool.and_eq_true, not_and, Bool.not_eq_true] at pair
    rw [← ih]
    by_cases first : (isHigh hi || isLow hi) = true
    · by_cases second : (isHigh lo || isLow lo) = true
      · simp only [map_cons, Code.normal, first, second, if_true, combine]
        rw [if_neg (by simpa using pair)]
      · simp [Code.normal, first, second, combine]
    · simp [Code.normal, first, combine, unitChar]
  | case3 n codes other ih =>
    rw [← ih]
    by_cases single : (isHigh n || isLow n) = true
    · cases codes with
      | nil => simp [Code.normal, single, combine]
      | cons code codes =>
        cases code with
        | char => simp [Code.normal, single, combine]
        | unit m => exact absurd rfl (other m codes)
    · simp [Code.normal, single, combine, unitChar]
  | case4 c codes ih => simp [Code.normal, combine, ih]
  | case5 => rfl

theorem unquote_eq_of_codes (es es' : List Elem)
    (codes : es.map (fun e => e.code.normal) = es'.map (fun e => e.code.normal)) :
    unquote es = unquote es' := by
  rw [unquote, unquote, ← combine_normal, ← combine_normal (es'.map Elem.code)]
  simpa [comp_def] using congrArg combine codes

variable (s : Str)

theorem combine_chars : combine (s.map Code.char) = s := by
  induction s with
  | nil => rfl
  | cons c s ih => simp [combine, ih]

def hexDigit (n : Fin 16) : HexDigit := ⟨Nat.digitChar n, by revert n; decide⟩

theorem hexValue_hexDigit : ∀ n : Fin 16, hexValue (hexDigit n).1 = n := by decide

/-- `\u` and four lower case hexadecimal digits. -/
def unicodeElem : Elem :=
  .unicode (hexDigit (Fin.ofNat 16 (n / 4096))) (hexDigit (Fin.ofNat 16 (n / 256)))
    (hexDigit (Fin.ofNat 16 (n / 16))) (hexDigit (Fin.ofNat 16 n))

theorem unicodeElem_code (bound : n < 65536) : (unicodeElem n).code = .unit n := by
  simp only [unicodeElem, Elem.code, hexValue_hexDigit, Fin.ofNat, Code.unit.injEq]
  omega

/-- The characters the encoder escapes although a literal may hold them. -/
def isHtml : Bool := c = '<' || c = '>' || c = '&' || c = '\u2028' || c = '\u2029'

def shortLetter : Option {c : Char // isShort c = true} :=
  if c = '"' then some ⟨'"', by decide⟩
  else if c = '\\' then some ⟨'\\', by decide⟩
  else if c = '\x08' then some ⟨'b', by decide⟩
  else if c = '\x0c' then some ⟨'f', by decide⟩
  else if c = '\n' then some ⟨'n', by decide⟩
  else if c = '\r' then some ⟨'r', by decide⟩
  else if c = '\t' then some ⟨'t', by decide⟩
  else none

def encodeChar : Elem :=
  if isHtml c then unicodeElem c.toNat
  else if plain : isPlain c = true then .plain ⟨c, plain⟩
  else
    match shortLetter c with
    | some e => .short e
    | none => unicodeElem c.toNat

def encodeString : List Elem := s.map encodeChar

theorem unicodeElem_normal (small : c.toNat < 0xD800) :
    (unicodeElem c.toNat).code.normal = .char c := by
  rw [unicodeElem_code _ (by omega)]
  have high : isHigh c.toNat = false := by simp [isHigh]; omega
  have low : isLow c.toNat = false := by simp [isLow]; omega
  simp [Code.normal, high, low]

theorem isHtml_small (html : isHtml c = true) : c.toNat < 0xD800 := by
  simp only [isHtml, Bool.or_eq_true, decide_eq_true_eq] at html
  rcases html with (((rfl | rfl) | rfl) | rfl) | rfl <;> decide

theorem shortLetter_value (e : {c : Char // isShort c = true})
    (found : shortLetter c = some e) : shortValue e.1 = c := by
  unfold shortLetter at found
  split_ifs at found <;> cases found <;> subst_vars <;> decide

theorem encodeChar_normal : (encodeChar c).code.normal = .char c := by
  unfold encodeChar
  by_cases html : isHtml c = true
  · rw [if_pos html]
    exact unicodeElem_normal c (isHtml_small c html)
  · rw [if_neg html]
    by_cases plain : isPlain c = true
    · rw [dif_pos plain]
      rfl
    · rw [dif_neg plain]
      cases found : shortLetter c with
      | some e => simp [Elem.code, Code.normal, shortLetter_value c e found]
      | none =>
        -- what is neither plain nor has a short escape is a control character
        apply unicodeElem_normal
        simp only [isPlain, ne_eq, Bool.and_eq_true, decide_eq_true_eq] at plain
        have quote : c ≠ '"' := by rintro rfl; simp [shortLetter] at found
        have slash : c ≠ '\\' := by rintro rfl; simp [shortLetter] at found
        have control : ¬ 0x20 ≤ c.toNat := fun large => plain ⟨by simp [quote, slash], large⟩
        omega

theorem unquote_encodeString : unquote (encodeString s) = s := by
  rw [unquote, ← combine_normal]
  have codes : ((encodeString s).map Elem.code).map Code.normal = s.map Code.char := by
    simp [encodeString, comp_def, encodeChar_normal]
  rw [codes, combine_chars]

/-- What the encoder makes of a literal that is already there. -/
def Elem.escapeHtml : Elem → Elem
  | .plain c => if isHtml c.1 then unicodeElem c.1.toNat else .plain c
  | e => e

theorem escapeHtml_normal (e : Elem) : e.escapeHtml.code.normal = e.code.normal := by
  cases e with
  | plain c =>
    by_cases html : isHtml c.1 = true
    · simp only [Elem.escapeHtml, html, if_true]
      rw [unicodeElem_normal c.1 (isHtml_small c.1 html)]
      rfl
    · simp [Elem.escapeHtml, html]
  | short => rfl
  | unicode => rfl

theorem unquote_escapeHtml (es : List Elem) : unquote (es.map Elem.escapeHtml) = unquote es := by
  apply unquote_eq_of_codes
  simp [escapeHtml_normal]

/-- A number stands for the `float64` its literal denotes. -/
inductive Value where
  | null
  | bool (b : Bool)
  | num (lit : NumLit)
  | str (s : Str)
  | arr (xs : List Value)
  | obj (m : List (Str × Value))

private def exponent : Int :=
  match s with
  | '-' :: digits => - (decimal digits : Int)
  | '+' :: digits => decimal digits
  | digits => decimal digits

def outOfRange (lit : Str) : Bool :=
  let unsigned := if hasPrefix lit ['-'] then lit.drop 1 else lit
  let whole := unsigned.takeWhile isDigit
  let rest := unsigned.dropWhile isDigit
  let frac := if hasPrefix rest ['.'] then (rest.drop 1).takeWhile isDigit else []
  let tail := if hasPrefix rest ['.'] then (rest.drop 1).dropWhile isDigit else rest
  let shift := exponent (tail.drop 1) - frac.length
  let limit := 2 ^ 1024 - 2 ^ 970
  decide (limit * 10 ^ (-shift).toNat ≤ decimal (whole ++ frac) * 10 ^ shift.toNat)

mutual

/-- The last of equal keys counts, and a number out of range is `nil`. -/
def Raw.value : Raw → Value
  | .null => .null
  | .bool b => .bool b
  | .num lit => if outOfRange lit.1 then .null else .num lit
  | .str es => .str (unquote es)
  | .arr xs => .arr (valueElems xs)
  | .obj ms => .obj (mapOf (valueMembers ms))

def valueElems : List Raw → List Value
  | [] => []
  | x :: xs => x.value :: valueElems xs

def valueMembers : List (List Elem × Raw) → List (Str × Value)
  | [] => []
  | (k, v) :: ms => (unquote k, v.value) :: valueMembers ms

end

mutual

/-- No number is out of range, so decoding reports no error. -/
def Raw.inRange : Raw → Bool
  | .num lit => !outOfRange lit.1
  | .arr xs => inRangeElems xs
  | .obj ms => inRangeMembers ms
  | _ => true

def inRangeElems : List Raw → Bool
  | [] => true
  | x :: xs => x.inRange && inRangeElems xs

def inRangeMembers : List (List Elem × Raw) → Bool
  | [] => true
  | (_, v) :: ms => v.inRange && inRangeMembers ms

end

theorem valueMembers_eq (ms : List (List Elem × Raw)) :
    valueMembers ms = ms.map fun p => (unquote p.1, p.2.value) := by
  induction ms with
  | nil => rfl
  | cons p ms ih =>
    obtain ⟨k, v⟩ := p
    rw [valueMembers, ih, map_cons]

theorem inRangeMembers_iff {ms : List (List Elem × Raw)} :
    inRangeMembers ms = true ↔ ∀ p ∈ ms, p.2.inRange = true := by
  induction ms with
  | nil => simp [inRangeMembers]
  | cons p ms ih =>
    obtain ⟨k, v⟩ := p
    rw [inRangeMembers, Bool.and_eq_true, ih, forall_mem_cons]

/-- A text decoded into a new map, and whether that reported an error. -/
def Raw.toMap : Raw → Map Value × Bool
  | .obj ms => (mapOf (valueMembers ms), !inRangeMembers ms)
  | .null => ([], false)
  | _ => ([], true)

/-- `json.Unmarshal` into a new map. -/
def unmarshalMap : Option (Map Value) :=
  match parseAll s with
  | some w => if w.toMap.2 then none else some w.toMap.1
  | none => none

variable (m : Map Value)

theorem distinct_unmarshalMap (decoded : unmarshalMap s = some m) : Distinct m := by
  unfold unmarshalMap at decoded
  split at decoded
  · next w parsed =>
    split_ifs at decoded
    cases decoded
    cases w with
    | obj => exact distinct_mapOf _
    | null | bool | num | str | arr => exact nodup_nil
  · cases decoded

def getStr (k : Str) : Option Str :=
  match m.lookup k with
  | some (.str s) => some s
  | _ => none

theorem getStr_eq_some {m : Map Value} {k s : Str} :
    getStr m k = some s ↔ m.lookup k = some (.str s) := by
  rw [getStr]
  split
  · next text found => rw [found, some.injEq, some.injEq, Value.str.injEq]
  · next others =>
    refine iff_of_false nofun ?_
    intro found
    exact others s found

/-- A missing key reads as `nil`. -/
def isNil (k : Str) : Bool :=
  match m.lookup k with
  | none | some .null => true
  | _ => false

theorem isNil_of_getStr {m : Map Value} {k s : Str} (found : getStr m k = some s) :
    isNil m k = false := by
  rw [isNil, getStr_eq_some.mp found]

/-- The order in which `range` walks over a map; it may be any. -/
structure MapOrder where
  iterate : Map Value → Map Value
  perm : ∀ m, (iterate m).Perm m

def MapOrder.asListed : MapOrder := ⟨id, fun _ => .refl _⟩

end Vissr.Json
