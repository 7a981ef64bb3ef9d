import Vissr.Bytes
import Vissr.Json.RoundTrip

/-! Texts put into JSON by hand (`jsonEscape` in `utils/grcputils.go`). -/

namespace Vissr.Transport

open Json List

/-- The check reads bytes, the rewriting runes. -/
def needsEscape (bytes : Bytes) : Bool :=
  bytes.any fun c => decide (c < 0x20) || c = 0x22 || c = 0x5c

def escapeRune (r : Char) : Str :=
  if r = '"' then "\\\""
  else if r = '\\' then "\\\\"
  else if r = '\n' then "\\n"
  else if r = '\r' then "\\r"
  else if r = '\t' then "\\t"
  else if r.toNat < 0x20 then
    "\\u00".toList ++ [Nat.digitChar (r.toNat / 16 % 16), Nat.digitChar (r.toNat % 16)]
  else [r]

def jsonEscape (s : Str) : Str :=
  if needsEscape (utf8Encode s) then s.flatMap escapeRune else s

variable {s : Str}

theorem escapeRune_plain {r : Char} (plain : isPlain r = true) : escapeRune r = [r] := by
  unfold escapeRune
  split_ifs with quote slash line back tab control
  any_goals
    subst r
    cases plain
  · simp [isPlain] at plain
    omega
  · rfl

theorem jsonEscape_eq : jsonEscape s = s.flatMap escapeRune := by
  rw [jsonEscape]
  split_ifs with needed
  · rfl
  · have same : ∀ r ∈ s, escapeRune r = [r] := by
      intro r mem
      apply escapeRune_plain
      have noted (n : Nat) (byte : n ∈ utf8Char r) : ¬ (n < 0x20 ∨ n = 0x22 ∨ n = 0x5c) := by
        intro special
        refine needed (any_eq_true.mpr ⟨n, mem_flatMap.mpr ⟨r, mem, byte⟩, ?_⟩)
        simpa [or_assoc] using special
      simp only [isPlain, Bool.and_eq_true, decide_eq_true_eq, ne_eq]
      refine ⟨⟨?_, ?_⟩, ?_⟩
      · rintro rfl
        exact noted 0x22 (by decide) (by decide)
      · rintro rfl
        exact noted 0x5c (by decide) (by decide)
      · by_contra control
        have byte : utf8Char r = [r.toNat] := if_pos (by omega)
        exact noted r.toNat (byte ▸ mem_singleton_self _) (by omega)
    rw [flatMap_congr same, flatMap_singleton']

theorem escapeRune_elem (r : Char) :
    ∃ e : Elem, e.render = escapeRune r ∧ e.code.normal = .char r := by
  unfold escapeRune
  split_ifs with quote slash line back tab control
  · subst quote
    exact ⟨.short ⟨'"', by decide⟩, rfl, rfl⟩
  · subst slash
    exact ⟨.short ⟨'\\', by decide⟩, rfl, rfl⟩
  · subst line
    exact ⟨.short ⟨'n', by decide⟩, rfl, rfl⟩
  · subst back
    exact ⟨.short ⟨'r', by decide⟩, rfl, rfl⟩
  · subst tab
    exact ⟨.short ⟨'t', by decide⟩, rfl, rfl⟩
  · have digits : ∀ n < 0x20, (unicodeElem n).render =
        "\\u00".toList ++ [Nat.digitChar (n / 16 % 16), Nat.digitChar (n % 16)] := by decide
    exact ⟨_, digits _ control, unicodeElem_normal r (by omega)⟩
  · have plain : isPlain r = true := by simp [isPlain, quote, slash]; omega
    exact ⟨.plain ⟨r, plain⟩, rfl, rfl⟩

theorem flatMap_escapeRune (s : Str) : ∃ es : List Elem, renderElems es = s.flatMap escapeRune ∧
      es.map (fun e => e.code.normal) = s.map .char := by
  induction s with
  | nil => exact ⟨[], rfl, rfl⟩
  | cons r s ih =>
    obtain ⟨e, text, code⟩ := escapeRune_elem r
    obtain ⟨es, texts, codes⟩ := ih
    exact ⟨e :: es, by rw [flatMap_cons, ← text, ← texts]; rfl, by rw [map_cons, code, codes]; rfl⟩

/-- Between quotes the escaped text is read as the text. -/
theorem json_escape_decodes (s : Str) : ∃ es, parseAll ('"' :: jsonEscape s ++ ['"']) =
      some (.str es) ∧ unquote es = s := by
  obtain ⟨es, text, codes⟩ := flatMap_escapeRune s
  refine ⟨es, ?_, ?_⟩
  · rw [jsonEscape_eq, ← text]
    exact parseAll_render (.str es) (Nat.zero_le _)
  · have chars := congrArg combine codes
    rw [combine_chars] at chars
    rw [unquote, ← combine_normal, map_map]
    exact chars

end Vissr.Transport
