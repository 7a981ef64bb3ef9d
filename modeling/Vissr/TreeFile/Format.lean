import Vissr.TreeFile.Model

/-! What the reader accepts as a node. -/

namespace Vissr.TreeFile

open Wire List Nat UInt8

variable {input rest : Octets} (value : UInt16)

theorem low_byte : ((value &&& 0x00FF).toUInt8).toNat = value.toNat % 256 := by
  have low : value.toNat &&& 255 = value.toNat % 256 := and_two_pow_sub_one_eq_mod _ 8
  rw [UInt16.toNat_toUInt8, UInt16.toNat_and]
  change (value.toNat &&& 255) % 256 = value.toNat % 256
  rw [low, mod_mod]

theorem high_byte : (((value &&& 0xFF00) / 256).toUInt8).toNat = value.toNat / 256 := by
  have high : (value.toNat &&& 65280) / 256 = value.toNat / 256 &&& 255 := by
    have shifted := shiftRight_and_distrib (i := 8) (a := value.toNat) (b := 65280)
    simpa [shiftRight_eq_div_pow] using shifted
  have bound : value.toNat / 256 < 256 := by
    have := value.toNat_lt
    omega
  have kept : value.toNat / 256 &&& 255 = value.toNat / 256 % 256 := and_two_pow_sub_one_eq_mod _ 8
  rw [UInt16.toNat_toUInt8, UInt16.toNat_div, UInt16.toNat_and]
  change (value.toNat &&& 65280) / 256 % 256 = value.toNat / 256
  rw [high, kept, mod_mod, mod_eq_of_lt bound]

theorem toNat_deSerializeUInt16 (low high : UInt8) :
    (deSerializeUInt16 low high).toNat = high.toNat * 256 + low.toNat := by
  have lowBound := low.toNat_lt
  have highBound := high.toNat_lt
  rw [deSerializeUInt16, UInt16.toNat_add, UInt16.toNat_mul, toNat_toUInt16,
    toNat_toUInt16]
  change (high.toNat * 256 % 65536 + low.toNat) % 65536 = high.toNat * 256 + low.toNat
  omega

theorem serializeUInt16_deSerialize (low high : UInt8) :
    serializeUInt16 (deSerializeUInt16 low high) = [low, high] := by
  have lowBound := low.toNat_lt
  have highBound := high.toNat_lt
  have value := toNat_deSerializeUInt16 low high
  have first : ((deSerializeUInt16 low high &&& 0x00FF).toUInt8) = low := by
    apply UInt8.toNat_inj.mp
    rw [low_byte, value]
    omega
  have second : (((deSerializeUInt16 low high &&& 0xFF00) / 256).toUInt8) = high := by
    apply UInt8.toNat_inj.mp
    rw [high_byte, value]
    omega
  rw [serializeUInt16, first, second]

theorem deSerializeUInt16_serialize :
    deSerializeUInt16 ((value &&& 0x00FF).toUInt8) (((value &&& 0xFF00) / 256).toUInt8) = value := by
  apply UInt16.toNat_inj.mp
  rw [toNat_deSerializeUInt16, low_byte, high_byte]
  omega

theorem parses_readBytesE {n : Nat} {bytes : Octets} :
    Parses (readBytesE n) input bytes rest ↔ bytes.length = n ∧ input = bytes ++ rest := by
  rw [readBytesE]
  split_ifs with none
  · rw [parses_pure, none, length_eq_zero_iff]
    constructor
    · intro known
      exact ⟨known.1.symm, by rw [← known.1, known.2, nil_append]⟩
    · intro known
      exact ⟨known.1.symm, by rw [known.2, known.1, nil_append]⟩
  · exact parses_take

theorem parses_readUint8 {value : UInt8} :
    Parses readUint8 input value rest ↔ input = value :: rest := by
  simp only [readUint8, parses_bind, parses_readBytesE, parses_pure]
  constructor
  · intro known
    obtain ⟨bytes, middle, ⟨one, split⟩, same, left⟩ := known
    obtain ⟨byte, single⟩ := length_eq_one_iff.mp one
    rw [single] at same split
    rw [split, ← left, ← same]
    rfl
  · intro split
    exact ⟨[value], rest, ⟨rfl, split⟩, rfl, rfl⟩

theorem parses_readUint16 {value : UInt16} :
    Parses readUint16 input value rest ↔ input = serializeUInt16 value ++ rest := by
  simp only [readUint16, parses_bind, parses_readBytesE, parses_pure]
  constructor
  · intro known
    obtain ⟨bytes, middle, ⟨two, split⟩, same, left⟩ := known
    obtain ⟨low, high, pair⟩ := length_eq_two.mp two
    rw [pair] at same split
    have decoded : deSerializeUInt16 low high = value := same
    rw [split, ← left, ← decoded, serializeUInt16_deSerialize]
  · intro split
    exact ⟨serializeUInt16 value, rest, ⟨rfl, split⟩, deSerializeUInt16_serialize value, rfl⟩

abbrev Text8 := {text : Octets // text.length < 256}

abbrev Text16 := {text : Octets // text.length < 65536}

def length8 : LengthCode UInt8 where
  bound := 256
  size := toNat
  ofNat := ofNat
  spell := serializeUInt8
  size_lt := toNat_lt
  ofNat_size := fun _ => UInt8.ofNat_toNat
  size_ofNat := fun _ short => mod_eq_of_lt short
  spell_inj := fun _ _ _ _ same => cons.inj same

theorem serializeUInt16_inj {a b : UInt16} (same : serializeUInt16 a = serializeUInt16 b) :
    a = b := by
  simp only [serializeUInt16, cons.injEq] at same
  rw [← deSerializeUInt16_serialize a, ← deSerializeUInt16_serialize b, same.1, same.2.1]

def length16 : LengthCode UInt16 where
  bound := 65536
  size := UInt16.toNat
  ofNat := UInt16.ofNat
  spell := serializeUInt16
  size_lt := UInt16.toNat_lt
  ofNat_size := fun _ => UInt16.ofNat_toNat
  size_ofNat := fun _ short => mod_eq_of_lt short
  spell_inj := fun _ _ _ _ same =>
    have parts := append_inj same rfl
    ⟨serializeUInt16_inj parts.1, parts.2⟩

theorem parses_readLenPrefixedString8 {text : Octets} :
    Parses readLenPrefixedString8 input text rest ↔
      ∃ whole : Text8, whole.val = text ∧ input = writeText8 whole.val ++ rest :=
  length8.parses_text parses_readUint8 parses_readBytesE

theorem writeText8_append_inj {a b : Text8} {r s : Octets}
    (same : writeText8 a.val ++ r = writeText8 b.val ++ s) : a = b ∧ r = s :=
  length8.write_append_inj same

theorem writeText16_append_inj {a b : Text16} {r s : Octets}
    (same : writeText16 a.val ++ r = writeText16 b.val ++ s) : a = b ∧ r = s :=
  length16.write_append_inj same

/-- An allowed value with its length in two hexadecimal digits. -/
structure RawElement where
  hi : UInt8
  lo : UInt8
  text : Octets
  valid : decodeAllowedLen hi lo = .ok text.length

def RawElement.bytes (element : RawElement) : Octets := element.hi :: element.lo :: element.text

open RawElement

theorem elements_nil {elements : List RawElement}
    (empty : [] = elements.flatMap bytes) : elements = [] := by
  cases elements with
  | nil => rfl
  | cons => cases empty

theorem elements_cons_iff {hi lo : UInt8} {buffer : Octets} {elements : List RawElement} :
    hi :: lo :: buffer = elements.flatMap bytes ↔
      ∃ first others, elements = first :: others ∧ first.hi = hi ∧ first.lo = lo ∧
        buffer = first.text ++ others.flatMap bytes := by
  constructor
  · intro same
    cases elements with
    | nil => cases same
    | cons first others =>
      have parts : hi :: lo :: buffer =
          first.hi :: first.lo :: (first.text ++ others.flatMap bytes) := same
      simp only [cons.injEq] at parts
      exact ⟨first, others, rfl, parts.1.symm, parts.2.1.symm, parts.2.2⟩
  · intro known
    obtain ⟨first, others, rfl, rfl, rfl, rfl⟩ := known
    rfl

variable (elements : List RawElement)

theorem countAllowedFrom_elements (rounds index count : Nat)
    (enough : (elements.flatMap bytes).length ≤ rounds) :
    countAllowedFrom rounds index count (elements.flatMap bytes) =
      .ok (count + elements.length) := by
  induction elements generalizing rounds index count with
  | nil => rw [flatMap_nil, countAllowedFrom]; rfl
  | cons element elements ih =>
    rw [flatMap_cons] at enough ⊢
    have shape : element.bytes ++ elements.flatMap bytes =
        element.hi :: element.lo :: (element.text ++ elements.flatMap bytes) := rfl
    rw [shape] at enough ⊢
    cases rounds with
    | zero => cases enough
    | succ rounds =>
      have fits : ¬ (element.text ++ elements.flatMap bytes).length <
          element.text.length := by
        simp
      have less : (elements.flatMap bytes).length ≤ rounds := by
        simp only [length_cons, length_append] at enough
        omega
      simp only [countAllowedFrom, element.valid, if_neg fits, drop_left]
      rw [ih rounds _ _ less, length_cons, Nat.add_assoc, Nat.add_comm 1]

theorem countAllowedFrom_cases (rounds index count : Nat) (buffer : Octets) (number : Nat)
    (counted : countAllowedFrom rounds index count buffer = .ok number) :
    ∃ elements : List RawElement, buffer = elements.flatMap bytes := by
  induction rounds generalizing index count buffer with
  | zero =>
    match buffer with
    | [] => exact ⟨[], rfl⟩
    | [_] => cases counted
    | _ :: _ :: _ => cases counted
  | succ rounds ih =>
    match buffer with
    | [] => exact ⟨[], rfl⟩
    | [_] => cases counted
    | hi :: lo :: rest =>
      rw [countAllowedFrom] at counted
      split at counted
      · cases counted
      · rename_i allowedLen decoded
        split_ifs at counted with short
        obtain ⟨elements, split⟩ := ih _ _ _ counted
        have long : (rest.take allowedLen).length = allowedLen :=
          length_take_of_le (Nat.le_of_not_lt short)
        refine ⟨⟨hi, lo, rest.take allowedLen, by rw [decoded, long]⟩ :: elements, ?_⟩
        rw [elements_cons_iff]
        refine ⟨_, elements, rfl, rfl, rfl, ?_⟩
        rw [← split, take_append_drop]

theorem countAllowedElementsE_iff {buffer : Octets} {number : Nat} :
    countAllowedElementsE buffer = .ok number ↔
      ∃ elements : List RawElement, buffer = elements.flatMap bytes ∧
        number = elements.length := by
  rw [countAllowedElementsE]
  constructor
  · intro counted
    obtain ⟨elements, split⟩ := countAllowedFrom_cases _ _ _ _ _ counted
    refine ⟨elements, split, ?_⟩
    rw [split, countAllowedFrom_elements elements _ _ _ le_rfl] at counted
    cases counted
    exact Nat.zero_add _
  · intro known
    obtain ⟨elements, rfl, rfl⟩ := known
    rw [countAllowedFrom_elements elements _ _ _ le_rfl, Nat.zero_add]

theorem extractAllowedFrom_elements (element : RawElement)
    (left alloweds bufIndex : Nat) (there : elements[left]? = some element) :
    extractAllowedFrom left alloweds bufIndex (elements.flatMap bytes) =
      .ok element.text := by
  induction elements generalizing left alloweds bufIndex with
  | nil => cases there
  | cons first others ih =>
    have shape : (first :: others).flatMap bytes =
        first.hi :: first.lo :: (first.text ++ others.flatMap bytes) := rfl
    have fits : ¬ (first.text ++ others.flatMap bytes).length < first.text.length := by
      simp
    rw [shape, extractAllowedFrom.eq_def]
    simp only [first.valid, if_neg fits]
    cases left with
    | zero =>
      cases there
      simp only [take_left]
    | succ left =>
      simp only [drop_left]
      exact ih left _ _ there

theorem parses_extractAllowedElements (indexes : List Nat)
    (within : ∀ i ∈ indexes, i < elements.length) {values : List Octets} :
    Parses (extractAllowedElements (elements.flatMap bytes) indexes) input values rest ↔
      values = indexes.map (fun i => (elements.map text).getD i []) ∧ input = rest := by
  induction indexes generalizing values input rest with
  | nil =>
    rw [extractAllowedElements, parses_pure, map_nil]
    exact and_congr_left fun _ => eq_comm
  | cons i indexes ih =>
    have inside := within i mem_cons_self
    have found : extractAllowedElementE (elements.flatMap bytes) i =
        .ok ((elements.map text).getD i []) := by
      rw [extractAllowedElementE,
        extractAllowedFrom_elements elements _ i 0 0 (getElem?_eq_getElem inside)]
      simp [getD_eq_getElem?_getD, inside]
    have later := fun j mem => within j (mem_cons_of_mem i mem)
    simp only [extractAllowedElements, inField, parses_bind, parses_within, parses_ofExcept,
      parses_pure, found, Except.ok.injEq, ih later, map_cons]
    constructor
    · intro known
      obtain ⟨_, _, ⟨rfl, rfl⟩, _, _, ⟨rfl, rfl⟩, rfl, rfl⟩ := known
      exact ⟨rfl, rfl⟩
    · intro known
      obtain ⟨rfl, rfl⟩ := known
      exact ⟨_, _, ⟨rfl, rfl⟩, _, _, ⟨rfl, rfl⟩, rfl, rfl⟩

theorem elements_inj {a b : List RawElement}
    (same : a.flatMap bytes = b.flatMap bytes) : a = b := by
  induction a generalizing b with
  | nil => exact (elements_nil same).symm
  | cons element elements ih =>
    have shape : (element :: elements).flatMap bytes =
        element.hi :: element.lo :: (element.text ++ elements.flatMap bytes) := rfl
    rw [shape] at same
    obtain ⟨first, others, rfl, hi, lo, split⟩ := elements_cons_iff.mp same
    have long : element.text.length = first.text.length := by
      have decoded := element.valid
      rw [← hi, ← lo, first.valid] at decoded
      exact (Except.ok.inj decoded).symm
    have parts := append_inj split long
    rw [ih parts.2]
    cases element
    cases first
    cases hi
    cases lo
    cases parts.1
    rfl

end Vissr.TreeFile
