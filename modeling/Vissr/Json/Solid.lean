import Vissr.Json.Marshal
import Vissr.Json.Paste

/-! Nothing but space is lost between a text and the value that is read, which is not nested too
deeply. -/

namespace Vissr.Json

open List Option Nat Bool Raw

def solid (s : Str) : Nat := s.countP fun c => !isSpace c

theorem solid_append (s t : Str) : solid (s ++ t) = solid s + solid t := countP_append

theorem solid_cons (c : Char) (s : Str) : solid (c :: s) = solid [c] + solid s := by
  rw [← solid_append, singleton_append]

theorem solid_singleton_le (c : Char) : solid [c] ≤ 1 := countP_le_length

variable {c : Char} {s rest : Str} {es : List Elem} {w : Raw}

theorem solid_singleton (visible : isSpace c = false) : solid [c] = 1 := by
  simp [solid, visible]

theorem solid_skipSpace (s : Str) : solid (skipSpace s) = solid s := by
  induction s with
  | nil => rfl
  | cons c s ih =>
    cases space : isSpace c with
    | true =>
      have skipped : skipSpace (c :: s) = skipSpace s := by
        simp [skipSpace, space]
      rw [skipped, ih]
      simp [solid, space]
    | false => rw [skipSpace_of_not_space c s space]

theorem solid_of_skipSpace {t : Str} (skipped : skipSpace s = c :: t) :
    solid s = solid [c] + solid t := by
  rw [← solid_skipSpace s, skipped, solid_cons]

theorem scanString_text (scanned : scanString s = some (es, rest)) :
    s = renderElems es ++ '"' :: rest := by
  fun_induction scanString s generalizing es rest with
  | case1 => cases scanned
  | case2 =>
    cases scanned
    rfl
  | case3 h1 h2 h3 h4 s hex _ ih | case5 e s _ short _ ih | case8 c s _ _ plain ih =>
    obtain ⟨p, inner, same⟩ := map_eq_some_iff.mp scanned
    cases same
    rw [ih inner]
    rfl
  | _ => cases scanned

theorem scanNumber_text {lit : NumLit} (scanned : scanNumber s = some (lit, rest)) :
    s = lit.1 ++ rest := by
  simp only [scanNumber] at scanned
  split_ifs at scanned
  cases scanned
  exact takeWhile_append_dropWhile.symm

theorem scanWord_text {word : Str} {value : Raw}
    (scanned : scanWord word value s = some (w, rest)) : s = word ++ rest ∧ w = value := by
  simp only [scanWord] at scanned
  split_ifs at scanned with start
  cases scanned
  obtain ⟨rest, rfl⟩ := isPrefixOf_iff_prefix.mp start
  simp

theorem solid_quoted (es : List Elem) : solid (quoted es) = solid (renderElems es) + 2 := by
  have quote : solid ['"'] = 1 := rfl
  rw [quoted, solid_append, solid_cons, quote]
  omega

theorem scanString_solid (scanned : scanString s = some (es, rest)) :
    1 + solid s = solid (quoted es) + solid rest := by
  have quote : solid ['"'] = 1 := rfl
  rw [scanString_text scanned, solid_append, solid_cons, quote, solid_quoted]
  omega

theorem scanWord_solid {word : Str} {value : Raw} {depth : Nat} (flat : value.nesting = 0)
    (text : value.render = c :: word) (scanned : scanWord word value s = some (w, rest)) :
    w.nesting ≤ depth ∧ solid [c] + solid s = solid w.render + solid rest := by
  obtain ⟨rfl, rfl⟩ := scanWord_text scanned
  rw [text, solid_append, solid_cons c word]
  omega

mutual

theorem parseValue_solid (fuel depth : Nat) (s rest : Str) (w : Raw)
    (parsed : parseValue fuel depth s = some (w, rest)) :
    w.nesting ≤ depth ∧ solid s = solid w.render + solid rest := by
  match fuel with
  | 0 =>
    rw [parseValue] at parsed
    cases parsed
  | fuel + 1 =>
    rw [parseValue] at parsed
    split at parsed
    · cases parsed
    · next c t skipped =>
      rw [solid_of_skipSpace skipped]
      split_ifs at parsed with quote bracket brace true false null
      · obtain ⟨p, inner, same⟩ := map_eq_some_iff.mp parsed
        cases same
        subst quote
        exact ⟨zero_le _, scanString_solid inner⟩
      · subst bracket
        split at parsed
        · cases parsed
        · next depth =>
          split at parsed
          · next empty =>
            cases parsed
            rw [solid_of_skipSpace empty, ← add_assoc]
            exact ⟨succ_le_succ (zero_le _), rfl⟩
          · obtain ⟨p, inner, same⟩ := map_eq_some_iff.mp parsed
            cases same
            obtain ⟨nested, x, xs, elems, kept⟩ := parseElems_solid fuel depth _ _ _ inner
            refine ⟨succ_le_succ nested, ?_⟩
            rw [solid_skipSpace] at kept
            rw [kept, elems, render, cons_append,
              solid_cons '[' (x.render ++ renderRest xs), add_assoc]
      · subst brace
        split at parsed
        · cases parsed
        · next depth =>
          split at parsed
          · next empty =>
            cases parsed
            rw [solid_of_skipSpace empty, ← add_assoc]
            exact ⟨succ_le_succ (zero_le _), rfl⟩
          · obtain ⟨p, inner, same⟩ := map_eq_some_iff.mp parsed
            cases same
            obtain ⟨nested, q, ms, members, kept⟩ := parseMembers_solid fuel depth _ _ _ inner
            refine ⟨succ_le_succ nested, ?_⟩
            rw [solid_skipSpace] at kept
            rw [kept, members, render_members, solid_cons '\x7b' (renderMember q ++ renderMore ms), add_assoc]
      · subst true
        exact scanWord_solid rfl rfl parsed
      · subst false
        exact scanWord_solid rfl rfl parsed
      · subst null
        exact scanWord_solid rfl rfl parsed
      · obtain ⟨p, inner, same⟩ := map_eq_some_iff.mp parsed
        cases same
        rw [← solid_cons, scanNumber_text inner, solid_append]
        exact ⟨zero_le _, rfl⟩

theorem parseElems_solid (fuel depth : Nat) (s rest : Str) (xs : List Raw)
    (parsed : parseElems fuel depth s = some (xs, rest)) :
    nestingElems xs ≤ depth ∧
      ∃ x xs', xs = x :: xs' ∧ solid s = solid (x.render ++ renderRest xs') + solid rest := by
  match fuel with
  | 0 =>
    rw [parseElems] at parsed
    cases parsed
  | fuel + 1 =>
    rw [parseElems] at parsed
    split at parsed
    · cases parsed
    · next x t first =>
      obtain ⟨deep, head⟩ := parseValue_solid fuel depth _ _ _ first
      split at parsed
      · next t' more =>
        obtain ⟨p, inner, same⟩ := map_eq_some_iff.mp parsed
        cases same
        obtain ⟨nested, y, ys, elems, kept⟩ := parseElems_solid fuel depth _ _ _ inner
        refine ⟨max_le deep nested, x, p.1, rfl, ?_⟩
        rw [head, solid_of_skipSpace more, kept, elems, renderRest, cons_append,
          solid_append x.render, solid_cons ',' (y.render ++ renderRest ys)]
        omega
      · next t' ended =>
        cases parsed
        refine ⟨max_le deep (zero_le _), x, [], rfl, ?_⟩
        rw [head, solid_of_skipSpace ended, renderRest, solid_append]
        omega
      · cases parsed

theorem parseMembers_solid (fuel depth : Nat) (s rest : Str) (ms : List (List Elem × Raw))
    (parsed : parseMembers fuel depth s = some (ms, rest)) :
    nestingMembers ms ≤ depth ∧
      ∃ p ms', ms = p :: ms' ∧ solid s = solid (renderMember p ++ renderMore ms') + solid rest := by
  match fuel with
  | 0 =>
    rw [parseMembers] at parsed
    cases parsed
  | fuel + 1 =>
    rw [parseMembers] at parsed
    split at parsed
    · next t opened =>
      split at parsed
      · cases parsed
      · next k t' key =>
        split at parsed
        · next t'' colon =>
          split at parsed
          · cases parsed
          · next v t''' first =>
            obtain ⟨deep, head⟩ := parseValue_solid fuel depth _ _ _ first
            have quotes := scanString_solid key
            have quote : solid ['"'] = 1 := rfl
            have member : solid s = solid (renderMember (k, v)) + solid t''' := by
              have text : renderMember (k, v) = quoted k ++ ':' :: v.render := rfl
              rw [text, solid_append, solid_cons ':' v.render]
              rw [solid_of_skipSpace colon] at quotes
              rw [solid_of_skipSpace opened]
              omega
            split at parsed
            · next rest' more =>
              obtain ⟨p, inner, same⟩ := map_eq_some_iff.mp parsed
              cases same
              obtain ⟨nested, q, qs, members, kept⟩ := parseMembers_solid fuel depth _ _ _ inner
              refine ⟨max_le deep nested, (k, v), p.1, rfl, ?_⟩
              rw [member, solid_of_skipSpace more, kept, members, renderMore_cons,
                solid_append (renderMember (k, v)),
                solid_cons ',' (renderMember q ++ renderMore qs)]
              omega
            · next rest' ended =>
              cases parsed
              refine ⟨max_le deep (zero_le _), (k, v), [], rfl, ?_⟩
              rw [member, solid_of_skipSpace ended, renderMore, solid_append]
              omega
            · cases parsed
        · cases parsed
    · cases parsed

end

theorem parseAll_solid (parsed : parseAll s = some w) : solid s = solid w.render := by
  simp only [parseAll, parse] at parsed
  split at parsed
  · next w' rest first =>
    split_ifs at parsed with ended
    cases parsed
    have kept := (parseValue_solid _ _ _ _ _ first).2
    rw [← solid_skipSpace rest, ended] at kept
    exact kept
  · cases parsed

def Elem.isEscape : Elem → Bool
  | .plain _ => false
  | _ => true

def escapes (es : List Elem) : Nat := es.countP Elem.isEscape

theorem solid_combine_unit (n : Nat) (codes : List Code) :
    solid (combine (.unit n :: codes)) ≤ 1 + solid (combine codes) := by
  have single : ∀ (c : Char) (s : Str), solid (c :: s) ≤ 1 + solid s := by
    intro c s
    rw [solid_cons]
    exact Nat.add_le_add_right (solid_singleton_le c) _
  cases codes with
  | nil => exact single (unitChar n) []
  | cons code codes =>
    cases code with
    | char =>
      rw [combine]
      · exact single _ _
      · simp
    | unit lo =>
      rw [combine]
      split_ifs with pair
      · -- the second half of a pair begins none, so it stands for a character itself
        have low : isHigh lo = false := by
          simp only [and_eq_true, isLow, decide_eq_true_eq] at pair
          simp only [isHigh, and_eq_false_iff, decide_eq_false_iff_not]
          omega
        have alone : combine (.unit lo :: codes) = unitChar lo :: combine codes := by
          cases codes with
          | nil => rfl
          | cons code =>
            cases code with
            | char => rfl
            | unit => rw [combine, if_neg (by simp [low])]
        rw [alone, solid_cons (unitChar lo)]
        have first := single (Char.ofNat (0x10000 + (n - 0xD800) * 0x400 + (lo - 0xDC00)))
          (combine codes)
        omega
      · exact single _ _

theorem isSpace_of_other {p : Char → Bool} (other : [' ', '\t', '\r', '\n'].any p = false)
    (holds : p c = true) : isSpace c = false := by
  cases space : isSpace c with
  | false => rfl
  | true =>
    simp only [isSpace, or_eq_true, decide_eq_true_eq] at space
    rcases space with ((rfl | rfl) | rfl) | rfl <;> simp [holds] at other

theorem solid_unquote (es : List Elem) :
    solid (unquote es) + escapes es ≤ solid (renderElems es) := by
  induction es with
  | nil => exact le_refl 0
  | cons e es ih =>
    have text : solid (renderElems (e :: es)) = solid e.render + solid (renderElems es) := by
      rw [← solid_append]
      rfl
    rw [text]
    simp only [unquote] at ih
    cases e with
    | plain c =>
      have read : unquote (.plain c :: es) = c.1 :: combine (es.map Elem.code) := rfl
      have counted : escapes (.plain c :: es) = escapes es := rfl
      have kept : (Elem.plain c).render = [c.1] := rfl
      rw [read, counted, kept, solid_cons]
      omega
    | short c =>
      have read : unquote (.short c :: es) = shortValue c.1 :: combine (es.map Elem.code) := rfl
      have counted : escapes (.short c :: es) = escapes es + 1 := countP_cons_of_pos rfl
      have slash : solid ['\\'] = 1 := rfl
      have kept : solid (Elem.short c).render = 2 := by
        rw [Elem.render, solid_cons, slash, solid_singleton (isSpace_of_other (by decide) c.2)]
      rw [read, counted, kept, solid_cons]
      have one := solid_singleton_le (shortValue c.1)
      omega
    | unicode a b c d =>
      have counted : escapes (.unicode a b c d :: es) = escapes es + 1 := countP_cons_of_pos rfl
      have kept : solid (Elem.unicode a b c d).render = 6 := by
        have visible : ∀ h : HexDigit, isSpace h.1 = false := fun h =>
          isSpace_of_other (by decide) h.2
        have letters : isSpace '\\' = false ∧ isSpace 'u' = false := ⟨rfl, rfl⟩
        simp [solid, Elem.render, visible, letters]
      rw [unquote, map_cons, Elem.code, counted, kept]
      have one := solid_combine_unit
        (((hexValue a.1 * 16 + hexValue b.1) * 16 + hexValue c.1) * 16 + hexValue d.1)
        (es.map Elem.code)
      omega

theorem plainText_of_escapes (none : escapes es = 0) : PlainText (unquote es) := by
  induction es with
  | nil => nofun
  | cons e es ih =>
    cases e with
    | plain c =>
      have read : unquote (.plain c :: es) = c.1 :: unquote es := rfl
      rw [read]
      intro d mem
      obtain rfl | later := mem_cons.mp mem
      · exact c.2
      · exact ih none d later
    | short | unicode => cases (countP_cons_of_pos rfl).symm.trans none

variable {ms : List (List Elem × Raw)}

theorem solid_renderMore (ms : List (List Elem × Raw)) :
    solid (renderMore ms) = 1 + (ms.map fun p => solid (renderMember p) + 1).sum := by
  induction ms with
  | nil => rfl
  | cons p ms ih =>
    have comma : solid [','] = 1 := rfl
    rw [renderMore_cons, solid_cons, comma, solid_append, ih, map_cons, sum_cons]
    omega

theorem add_le_sum {α : Type} (f : α → Nat) {a b : α} {l : List α} (first : a ∈ l) (second : b ∈ l)
    (different : a ≠ b) : f a + f b ≤ (l.map f).sum := by
  classical
  have left : b ∈ l.erase a := (mem_erase_of_ne different.symm).mpr second
  rw [← sum_map_erase f first]
  exact Nat.add_le_add_left (le_sum_of_mem (mem_map_of_mem left)) _

theorem solid_members {p q : List Elem × Raw} (first : p ∈ ms) (second : q ∈ ms)
    (different : p ≠ q) :
    solid (renderMember p) + solid (renderMember q) + 3 ≤ solid (obj ms).render := by
  cases ms with
  | nil => cases first
  | cons r ms =>
    have brace : solid ['\x7b'] = 1 := rfl
    have both := add_le_sum (fun p => solid (renderMember p) + 1) first second different
    rw [map_cons, sum_cons] at both
    rw [render_members, solid_cons, brace, solid_append, solid_renderMore]
    omega

theorem solid_renderMember (p : List Elem × Raw) :
    solid (unquote p.1) + solid p.2.render + 3 ≤ solid (renderMember p) := by
  have colon : solid [':'] = 1 := rfl
  have key := solid_unquote p.1
  rw [renderMember, solid_append, solid_cons, colon, solid_quoted]
  omega

theorem member_of_lookup {k : Str} {v : Value}
    (found : (mapOf (valueMembers ms)).lookup k = some v) :
    ∃ p ∈ ms, unquote p.1 = k ∧ p.2.value = v := by
  have member := (lookup_eq_some_iff _ (distinct_mapOf _) k v).mp found
  have listed := mem_mapOf _ _ member
  rw [valueMembers_eq] at listed
  obtain ⟨p, inside, same⟩ := mem_map.mp listed
  exact ⟨p, inside, congrArg Prod.fst same, congrArg Prod.snd same⟩

theorem solid_lookups {k k' : Str} {v v' : Value} (different : k ≠ k')
    (found : (mapOf (valueMembers ms)).lookup k = some v)
    (found' : (mapOf (valueMembers ms)).lookup k' = some v') :
    ∃ w w' : Raw, w.value = v ∧ w'.value = v' ∧
      solid k + solid w.render + (solid k' + solid w'.render) + 9 ≤ solid (obj ms).render := by
  obtain ⟨p, inside, rfl, value⟩ := member_of_lookup found
  obtain ⟨q, inside', rfl, value'⟩ := member_of_lookup found'
  have apart : p ≠ q := by
    rintro rfl
    exact different rfl
  refine ⟨p.2, q.2, value, value', ?_⟩
  have both := solid_members inside inside' apart
  have first := solid_renderMember p
  have second := solid_renderMember q
  omega

theorem value_eq_str (text : w.value = .str s) : ∃ es, w = .str es ∧ unquote es = s := by
  cases w with
  | str es =>
    rw [value] at text
    exact ⟨es, rfl, Value.str.inj text⟩
  | num =>
    rw [value] at text
    split_ifs at text
  | null | bool | arr | obj => cases text

theorem value_eq_obj {m : Map Value} (object : w.value = .obj m) :
    ∃ ms, w = .obj ms ∧ m = mapOf (valueMembers ms) := by
  cases w with
  | obj ms =>
    rw [value] at object
    exact ⟨ms, rfl, (Value.obj.inj object).symm⟩
  | num =>
    rw [value] at object
    split_ifs at object
  | null | bool | arr | str => cases object

end Vissr.Json
