import Mathlib

/-! Parsers of byte strings, which take a value off the front of their input or fail. -/

namespace Vissr.Wire

abbrev Octets := List UInt8

abbrev Parser (ε α : Type) := StateT Octets (Except ε) α

variable {ε δ α β : Type}

def Parses (p : Parser ε α) (input : Octets) (value : α) (rest : Octets) : Prop :=
  p.run input = .ok (value, rest)

/-- The errors of a parser, as part of another's. -/
def within (wrap : ε → δ) (p : Parser ε α) : Parser δ α := fun input =>
  (p.run input).mapError wrap

def ofExcept (result : Except ε α) : Parser ε α := fun input =>
  result.map fun value => (value, input)

def take (short : Octets → ε) (n : Nat) : Parser ε Octets := fun input =>
  if n ≤ input.length then .ok (input.take n, input.drop n) else .error (short input)

variable {input rest : Octets} {value : α}

theorem except_bind_eq_ok {x : Except ε α} {f : α → Except ε β} {b : β} :
    (x >>= f) = .ok b ↔ ∃ a, x = .ok a ∧ f a = .ok b := by
  cases x with
  | error =>
    refine iff_of_false nofun ?_
    rintro ⟨a, ⟨⟩, -⟩
  | ok a =>
    constructor
    · intro same
      exact ⟨a, rfl, same⟩
    · intro known
      obtain ⟨_, same, rest⟩ := known
      cases same
      exact rest

theorem parses_pure {a : α} :
    Parses (pure a : Parser ε α) input value rest ↔ a = value ∧ input = rest := by
  rw [Parses]
  constructor
  · intro same
    cases same
    exact ⟨rfl, rfl⟩
  · intro known
    rw [known.1, known.2]
    rfl

variable {p : Parser ε α}

theorem parses_bind {f : α → Parser ε β} {b : β} : Parses (p >>= f) input b rest ↔
      ∃ a middle, Parses p input a middle ∧ Parses (f a) middle b rest := by
  rw [Parses, StateT.run_bind, except_bind_eq_ok, Prod.exists]
  rfl

theorem parses_within {wrap : ε → δ} :
    Parses (within wrap p) input value rest ↔ Parses p input value rest := by
  have run : (within wrap p).run input = (p.run input).mapError wrap := rfl
  rw [Parses, Parses, run]
  cases p.run input with
  | error => exact iff_of_false nofun nofun
  | ok =>
    constructor
    · intro same
      cases same
      rfl
    · intro same
      cases same
      rfl

theorem parses_ofExcept {result : Except ε α} :
    Parses (ofExcept result) input value rest ↔ result = .ok value ∧ input = rest := by
  have run : (ofExcept result).run input = result.map fun value => (value, input) := rfl
  rw [Parses, run]
  cases result with
  | error => exact iff_of_false nofun fun known => nomatch known.1
  | ok =>
    constructor
    · intro same
      cases same
      exact ⟨rfl, rfl⟩
    · intro known
      cases known.1
      rw [known.2]
      rfl

theorem parses_take {short : Octets → ε} {n : Nat} {bytes : Octets} :
    Parses (take short n) input bytes rest ↔ bytes.length = n ∧ input = bytes ++ rest := by
  have run : (take short n).run input =
      if n ≤ input.length then .ok (input.take n, input.drop n) else .error (short input) := rfl
  rw [Parses, run]
  constructor
  · intro same
    split_ifs at same with enough
    cases same
    exact ⟨List.length_take_of_le enough, (List.take_append_drop n input).symm⟩
  · intro known
    obtain ⟨rfl, rfl⟩ := known
    rw [if_pos (by simp)]
    simp

theorem parses_bind_assoc {γ : Type} {f : α → Parser ε β} {g : β → Parser ε γ} {c : γ} :
    Parses (p >>= fun a => f a >>= g) input c rest ↔ Parses (p >>= f >>= g) input c rest := by
  rw [bind_assoc]

/-- A way to write lengths that are less than a bound. -/
structure LengthCode (ν : Type) where
  bound : Nat
  size : ν → Nat
  ofNat : Nat → ν
  spell : ν → Octets
  size_lt : ∀ n, size n < bound
  ofNat_size : ∀ n, ofNat (size n) = n
  size_ofNat : ∀ k, k < bound → size (ofNat k) = k
  spell_inj : ∀ n m r s, spell n ++ r = spell m ++ s → n = m ∧ r = s

namespace LengthCode

variable {ν : Type} (code : LengthCode ν) {input rest : Octets}

/-- The texts whose length can be written. -/
abbrev Text := {text : Octets // text.length < code.bound}

def write (text : Octets) : Octets := code.spell (code.ofNat text.length) ++ text

theorem parses_text {p : Parser ε ν} {q : ν → Parser ε Octets}
    (number : ∀ {input n rest}, Parses p input n rest ↔ input = code.spell n ++ rest)
    (content : ∀ {n input bytes rest}, Parses (q n) input bytes rest ↔
      bytes.length = code.size n ∧ input = bytes ++ rest) {text : Octets} :
    Parses (p >>= q) input text rest ↔
      ∃ whole : code.Text, whole.val = text ∧ input = code.write whole.val ++ rest := by
  simp only [parses_bind, number, content]
  constructor
  · intro known
    obtain ⟨n, middle, split, long, left⟩ := known
    have short : text.length < code.bound := long ▸ code.size_lt n
    have length : code.ofNat text.length = n := by
      rw [long, code.ofNat_size]
    refine ⟨⟨text, short⟩, rfl, ?_⟩
    rw [split, left, write, length, List.append_assoc]
  · intro known
    obtain ⟨whole, rfl, split⟩ := known
    refine ⟨code.ofNat whole.val.length, whole.val ++ rest, ?_,
      (code.size_ofNat _ whole.property).symm, rfl⟩
    rw [split, write, List.append_assoc]

theorem parses_text_then {p : Parser ε Octets}
    (reads : ∀ {input text rest}, Parses p input text rest ↔
      ∃ whole : code.Text, whole.val = text ∧ input = code.write whole.val ++ rest)
    {next : Octets → Parser ε β} {b : β} : Parses (p >>= next) input b rest ↔
      ∃ (whole : code.Text) (middle : Octets), input = code.write whole.val ++ middle ∧
        Parses (next whole.val) middle b rest := by
  simp only [parses_bind, reads]
  constructor
  · intro known
    obtain ⟨_, middle, ⟨whole, rfl, split⟩, after⟩ := known
    exact ⟨whole, middle, split, after⟩
  · intro known
    obtain ⟨whole, middle, split, after⟩ := known
    exact ⟨whole.val, middle, ⟨whole, rfl, split⟩, after⟩

theorem write_append_inj {a b : code.Text} {r s : Octets}
    (same : code.write a.val ++ r = code.write b.val ++ s) : a = b ∧ r = s := by
  rw [write, write, List.append_assoc, List.append_assoc] at same
  obtain ⟨number, tail⟩ := code.spell_inj _ _ _ _ same
  have long : a.val.length = b.val.length := by
    rw [← code.size_ofNat _ a.property, ← code.size_ofNat _ b.property, number]
  have both := List.append_inj tail long
  exact ⟨Subtype.ext both.1, both.2⟩

end LengthCode

end Vissr.Wire
