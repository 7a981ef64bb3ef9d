import Mathlib

/-! Go strings and the parts of `strings` and `strconv` the server uses. A string is read as its
characters, bytes that are not valid UTF-8 as U+FFFD, which is what `encoding/json` makes of them. -/

namespace Vissr

open List Nat

abbrev Str := List Char

instance : Coe String Str := ⟨String.toList⟩

instance : LawfulBEq Str := inferInstance

/-- `strings.Contains`. -/
def contains (s sub : Str) : Bool := decide (sub <:+: s)

/-- `strings.HasPrefix`. -/
def hasPrefix (s start : Str) : Bool := start.isPrefixOf s

/-- `strings.Index` for a one character separator. -/
def index (c : Char) (s : Str) : Option Nat := s.findIdx? (· = c)

/-- `strings.Index`. -/
def indexOf (sub s : Str) : Option Nat :=
  (range (s.length + 1)).find? fun i => sub.isPrefixOf (s.drop i)

variable {u t s : Str} {c : Char} {n : Int}

theorem infix_append_cons {sub : Str} (absent : c ∉ sub) (inside : sub <:+: u ++ c :: t) :
    sub <:+: u ∨ sub <:+: t := by
  obtain left | right | ⟨l, r, same, ends, starts⟩ := infix_append_iff.mp inside
  · exact .inl left
  · obtain start | later := infix_cons_iff.mp right
    · cases sub with
      | nil => exact .inr nil_infix
      | cons =>
        have first := (cons_prefix_cons.mp start).1
        exact absurd (first ▸ mem_cons_self) absent
    · exact .inr later
  · cases r with
    | nil =>
      rw [append_nil] at same
      exact .inl (same ▸ ends.isInfix)
    | cons =>
      have first := (cons_prefix_cons.mp starts).1
      apply absurd _ absent
      rw [same, first]
      exact mem_append_right _ mem_cons_self

theorem indexOf_append_cons {sub : Str} (absent : c ∉ sub) (clear : ¬ sub <:+: u) :
    indexOf sub (u ++ c :: (sub ++ t)) = some (u.length + 1) := by
  rw [indexOf, find?_range_eq_some]
  refine ⟨?_, ?_, ?_⟩
  · have rest : (u ++ c :: (sub ++ t)).drop (u.length + 1) = sub ++ t := by
      rw [← drop_drop, drop_left]
      rfl
    rw [rest]
    exact isPrefixOf_iff_prefix.mpr (prefix_append sub t)
  · simp only [mem_range, length_append, length_cons]
    omega
  · intro j before
    have inside : j ≤ u.length := le_of_lt_succ before
    rw [Bool.not_eq_true', Bool.eq_false_iff]
    intro found
    rw [List.isPrefixOf_iff_prefix, drop_append_of_le_length inside] at found
    -- the occurrence would end before the separator or contain it
    obtain within | ⟨more, same⟩ := prefix_or_prefix_of_prefix found (prefix_append (u.drop j) _)
    · exact clear (within.isInfix.trans (drop_suffix j u).isInfix)
    · cases more with
      | nil =>
        rw [append_nil] at same
        exact clear (same ▸ (drop_suffix j u).isInfix)
      | cons =>
        rw [← same] at found
        obtain ⟨tail, rest⟩ := (prefix_append_right_inj _).mp found
        injection rest with first _
        apply absent
        rw [← same, ← first]
        exact mem_append_right _ mem_cons_self

theorem index_append_cons (absent : c ∉ u) (t : Str) : index c (u ++ c :: t) = some u.length := by
  have before : u.findIdx? (· = c) = none := by
    rw [findIdx?_eq_none_iff]
    intro d mem
    apply decide_eq_false
    rintro rfl
    exact absent mem
  rw [index, findIdx?_append, before, findIdx?_cons]
  simp

theorem append_cons_inj {a b : Str} (absentA : c ∉ a) (absentB : c ∉ b)
    (same : a ++ c :: s = b ++ c :: t) : a = b ∧ s = t := by
  have place := index_append_cons absentA s
  rw [same, index_append_cons absentB t] at place
  obtain ⟨front, rest⟩ := append_inj same (Option.some.inj place).symm
  exact ⟨front, (cons.inj rest).2⟩

def afterLast (c : Char) (s : Str) : Option Str :=
  if c ∈ s then some (s.reverse.takeWhile (· ≠ c)).reverse else none

theorem afterLast_append (c : Char) (s name : Str) (absent : c ∉ name) :
    afterLast c (s ++ c :: name) = some name := by
  have keep : (name.reverse ++ c :: s.reverse).takeWhile (· ≠ c) = name.reverse := by
    rw [takeWhile_append_of_pos]
    · simp
    · intro d mem
      have inside := mem_reverse.mp mem
      simp only [ne_eq, decide_eq_true_eq]
      rintro rfl
      exact absent inside
  simp only [afterLast, mem_append, mem_cons, true_or, or_true, if_true,
    reverse_append, reverse_cons, append_assoc, singleton_append]
  rw [keep, reverse_reverse]

theorem not_mem_afterLast (c : Char) (s : Str) : c ∉ (afterLast c s).getD [] := by
  unfold afterLast
  split_ifs
  · simp only [Option.getD_some, mem_reverse]
    intro mem
    have kept := all_eq_true.mp all_takeWhile c mem
    simp at kept
  · simp

def beforeLast (c : Char) (s : Str) : Option Str :=
  if c ∈ s then some ((s.reverse.dropWhile (· ≠ c)).drop 1).reverse else none

def isDigit (c : Char) : Bool := decide ('0' ≤ c) && decide (c ≤ '9')

def digitValue (c : Char) : Nat := c.toNat - '0'.toNat

def decimal (digits : Str) : Nat := digits.foldl (fun n c => 10 * n + digitValue c) 0

/-- `int` has 64 bits on the targets the server is built for. -/
def fitsInt (n : Int) : Bool := decide (-(2 ^ 63) ≤ n) && decide (n < 2 ^ 63)

theorem fitsInt_iff : fitsInt n = true ↔ -(2 ^ 63) ≤ n ∧ n < 2 ^ 63 := by
  rw [fitsInt, Bool.and_eq_true, decide_eq_true_eq, decide_eq_true_eq]

private def magnitude (digits : Str) (sign : Int) : Option Int :=
  if digits ≠ [] ∧ digits.all isDigit ∧ fitsInt (sign * decimal digits) then
    some (sign * decimal digits)
  else none

/-- `strconv.Atoi`: a sign and digits, within the range of `int`. -/
def atoi : Str → Option Int
  | '-' :: digits => magnitude digits (-1)
  | '+' :: digits => magnitude digits 1
  | digits => magnitude digits 1

private theorem magnitude_some {digits : Str} {sign : Int} (read : magnitude digits sign = some n) :
    (∀ c ∈ digits, isDigit c = true) ∧ fitsInt n = true := by
  unfold magnitude at read
  split_ifs at read with valid
  cases read
  exact ⟨all_eq_true.mp valid.2.1, valid.2.2⟩

theorem atoi_fits (read : atoi s = some n) : fitsInt n = true := by
  unfold atoi at read
  split at read <;> exact (magnitude_some read).2

theorem atoi_chars (read : atoi s = some n) : ∀ c ∈ s, isDigit c = true ∨ c = '-' ∨ c = '+' := by
  intro c member
  unfold atoi at read
  split at read
  · obtain rfl | member := mem_cons.mp member
    · exact .inr (.inl rfl)
    · exact .inl ((magnitude_some read).1 c member)
  · obtain rfl | member := mem_cons.mp member
    · exact .inr (.inr rfl)
    · exact .inl ((magnitude_some read).1 c member)
  · exact .inl ((magnitude_some read).1 c member)

/-- What `strconv.Atoi` returns with an error: zero, or the end of the range. -/
def atoiClamped (s : Str) : Int :=
  let digits := if hasPrefix s ['-'] || hasPrefix s ['+'] then s.drop 1 else s
  match atoi s with
  | some n => n
  | none =>
    if digits ≠ [] ∧ digits.all isDigit then
      if hasPrefix s ['-'] then -(2 ^ 63) else 2 ^ 63 - 1
    else 0

/-- `strconv.Itoa`. -/
def itoa : Int → Str
  | .ofNat n => toDigits 10 n
  | .negSucc n => '-' :: toDigits 10 (n + 1)

theorem itoa_chars (n : Int) : ∀ c ∈ itoa n, c.isDigit = true ∨ c = '-' := by
  intro c member
  cases n with
  | ofNat => exact .inl (isDigit_of_mem_toDigits (by decide) (by decide) member)
  | negSucc =>
    obtain rfl | member := mem_cons.mp member
    · exact .inr rfl
    · exact .inl (isDigit_of_mem_toDigits (by decide) (by decide) member)

theorem itoa_ne_nil (n : Int) : itoa n ≠ [] := by
  cases n with
  | ofNat => exact toDigits_ne_nil
  | negSucc => exact cons_ne_nil _ _

theorem decimal_toDigits (n : Nat) : decimal (toDigits 10 n) = n := by
  have parsed : ofDigitChars 10 (toDigits 10 n) 0 = n := by simp
  exact parsed

theorem toDigits_all_isDigit (n : Nat) : (toDigits 10 n).all isDigit = true := by
  rw [all_eq_true]
  intro c mem
  have digit := isDigit_of_mem_toDigits (by decide) (by decide) mem
  simpa [isDigit, Char.isDigit, Char.le_def] using digit

private theorem magnitude_toDigits (n : Nat) (sign : Int) (fits : fitsInt (sign * n) = true) :
    magnitude (toDigits 10 n) sign = some (sign * n) := by
  simp only [magnitude, decimal_toDigits]
  exact if_pos ⟨toDigits_ne_nil, toDigits_all_isDigit n, fits⟩

theorem atoi_itoa (n : Int) (fits : fitsInt n = true) : atoi (itoa n) = some n := by
  cases n with
  | ofNat n =>
    have read := magnitude_toDigits n 1 (by rw [Int.one_mul]; exact fits)
    rw [Int.one_mul] at read
    have digits := toDigits_all_isDigit n
    show atoi (toDigits 10 n) = some (n : Int)
    cases text : toDigits 10 n with
    | nil => exact absurd text toDigits_ne_nil
    | cons c =>
      rw [text] at read digits
      have digit : isDigit c = true := (all_eq_true.mp digits) c mem_cons_self
      have minus : c ≠ '-' := by
        rintro rfl
        cases digit
      have plus : c ≠ '+' := by
        rintro rfl
        cases digit
      simpa [atoi, minus, plus] using read
  | negSucc n =>
    have same : -1 * ((n + 1 : Nat) : Int) = Int.negSucc n := by
      rw [Int.neg_one_mul]
      rfl
    have read := magnitude_toDigits (n + 1) (-1) (by rw [same]; exact fits)
    rwa [same] at read

theorem atoiClamped_itoa (n : Int) (fits : fitsInt n = true) : atoiClamped (itoa n) = n := by
  simp only [atoiClamped, atoi_itoa n fits]

example : atoi "-01" = some (-1) := by decide
example : atoi "12a" = none := by decide

end Vissr
