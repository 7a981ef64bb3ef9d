import Vissr.Json.Value

/-! Reading back what was written: a rendered value parses to itself. -/

namespace Vissr.Json

open List Option Nat Raw

theorem skipSpace_of_not_space (c : Char) (s : Str) (solid : isSpace c = false) :
    skipSpace (c :: s) = c :: s := by
  simp [skipSpace, solid]

theorem isShort_ne_u (c : {c : Char // isShort c = true}) : c.1 ≠ 'u' := by
  intro same
  have short := c.2
  rw [same] at short
  exact absurd short (by decide)

theorem isPlain_ne (c : {c : Char // isPlain c = true}) : c.1 ≠ '"' ∧ c.1 ≠ '\\' := by
  have plain := c.2
  simp only [isPlain, ne_eq, Bool.and_eq_true, decide_eq_true_eq] at plain
  simpa using plain.1

theorem scanString_elem (e : Elem) (s : Str) :
    scanString (e.render ++ s) = (scanString s).map fun p => (e :: p.1, p.2) := by
  cases e with
  | plain c =>
    conv_lhs => rw [scanString.eq_def]
    simp only [Elem.render, cons_append, nil_append]
    rw [if_neg (isPlain_ne c).1, if_neg (isPlain_ne c).2, dif_pos c.2]
  | short c =>
    have letter := isShort_ne_u c
    obtain ⟨c, short⟩ := c
    conv_lhs => rw [scanString.eq_def]
    simp only [Elem.render, cons_append, nil_append]
    rw [if_neg (by decide), if_pos True.intro]
    split
    · next same =>
      cases same
      exact absurd rfl letter
    · next same =>
      cases same
      rw [dif_pos short]
    · next same => cases same
  | unicode a b c d =>
    conv_lhs => rw [scanString.eq_def]
    simp only [Elem.render, cons_append, nil_append]
    rw [if_neg (by decide), if_pos True.intro, dif_pos ⟨a.2, b.2, c.2, d.2⟩]

theorem scanString_quoted (es : List Elem) (s : Str) :
    scanString (renderElems es ++ '"' :: s) = some (es, s) := by
  induction es with
  | nil =>
    rw [scanString.eq_def]
    simp [renderElems]
  | cons e es ih =>
    have split : renderElems (e :: es) ++ '"' :: s = e.render ++ (renderElems es ++ '"' :: s) := by
      simp [renderElems]
    rw [split, scanString_elem, ih]
    rfl

def StopsNumber (rest : Str) : Prop := ∀ c, rest.head? = some c → isNumChar c = false

theorem stopsNumber_cons (c : Char) (rest : Str) (stop : isNumChar c = false) :
    StopsNumber (c :: rest) := by
  intro d head
  cases head
  exact stop

theorem stopsNumber_nil : StopsNumber [] := by
  intro c head
  cases head

theorem scanNumber_lit (lit : NumLit) (rest : Str) (stops : StopsNumber rest) :
    scanNumber (lit.1 ++ rest) = some (lit, rest) := by
  have take : (lit.1 ++ rest).takeWhile isNumChar = lit.1 := by
    rw [takeWhile_append_of_pos (fun c mem => all_eq_true.mp lit.2.1 c mem)]
    cases rest with
    | nil => simp
    | cons c => simp [stops c rfl]
  have drop : (lit.1 ++ rest).dropWhile isNumChar = rest := by
    rw [dropWhile_append_of_pos (fun c mem => all_eq_true.mp lit.2.1 c mem)]
    cases rest with
    | nil => simp
    | cons c => simp [stops c rfl]
  unfold scanNumber
  rw [dif_pos (by rw [take]; exact lit.2.2)]
  simp [take, drop]

theorem numLit_head (lit : NumLit) : ∃ c s, lit.1 = c :: s ∧ (isDigit c = true ∨ c = '-') := by
  obtain ⟨lit, chars, number⟩ := lit
  match lit, number with
  | '-' :: s, _ => exact ⟨'-', s, rfl, .inr rfl⟩
  | c :: s, number =>
    by_cases minus : c = '-'
    · exact ⟨c, s, rfl, .inr minus⟩
    · refine ⟨c, s, rfl, .inl ?_⟩
      unfold isNumber at number
      split at number
      · next same => cases same; exact absurd rfl minus
      · unfold intOk at number
        split at number
        · next same => cases same; decide
        · next same => cases same; exact (Bool.and_eq_true _ _ ▸ number).1
        · next same => cases same

mutual

def Raw.nesting : Raw → Nat
  | .arr xs => nestingElems xs + 1
  | .obj ms => nestingMembers ms + 1
  | _ => 0

def nestingElems : List Raw → Nat
  | [] => 0
  | x :: xs => max x.nesting (nestingElems xs)

def nestingMembers : List (List Elem × Raw) → Nat
  | [] => 0
  | (_, v) :: ms => max v.nesting (nestingMembers ms)

end

theorem renderRest_length (xs : List Raw) : 0 < (renderRest xs).length := by
  cases xs <;> simp [renderRest]

variable (ms : List (List Elem × Raw))

theorem renderMore_length : 0 < (renderMore ms).length := by
  rcases ms with _ | ⟨⟨k, v⟩, ms⟩ <;> simp [renderMore]

theorem renderRest_stops (xs : List Raw) (rest : Str) : StopsNumber (renderRest xs ++ rest) := by
  cases xs <;> exact stopsNumber_cons _ _ (by decide)

theorem renderMore_stops (rest : Str) : StopsNumber (renderMore ms ++ rest) := by
  rcases ms with _ | ⟨⟨k, v⟩, ms⟩ <;> exact stopsNumber_cons _ _ (by decide)

theorem digit_cases (c : Char) (first : isDigit c = true ∨ c = '-') :
    isSpace c = false ∧ c ≠ '"' ∧ c ≠ '[' ∧ c ≠ '\x7b' ∧ c ≠ 't' ∧ c ≠ 'f' ∧ c ≠ 'n' ∧ c ≠ ']' := by
  have differs (d : Char) (other : isDigit d = false ∧ d ≠ '-') : c ≠ d := by
    rintro rfl
    obtain first | first := first
    · rw [other.1] at first
      cases first
    · exact other.2 first
  have space := differs ' ' (by decide)
  have tab := differs '\t' (by decide)
  have ret := differs '\r' (by decide)
  have line := differs '\n' (by decide)
  refine ⟨by simp [isSpace, space, tab, ret, line], ?_, ?_, ?_, ?_, ?_, ?_, ?_⟩ <;>
    exact differs _ (by decide)

theorem render_head (w : Raw) : ∃ c s, w.render = c :: s ∧ isSpace c = false ∧ c ≠ ']' := by
  cases w with
  | null => exact ⟨'n', "ull", rfl, by decide, by decide⟩
  | bool b =>
    cases b with
    | true => exact ⟨'t', "rue", rfl, by decide, by decide⟩
    | false => exact ⟨'f', "alse", rfl, by decide, by decide⟩
  | num lit =>
    obtain ⟨c, s, split, first⟩ := numLit_head lit
    have facts := digit_cases c first
    exact ⟨c, s, by rw [render, split], facts.1, facts.2.2.2.2.2.2.2⟩
  | str es => exact ⟨'"', renderElems es ++ ['"'], rfl, by decide, by decide⟩
  | arr xs =>
    cases xs with
    | nil => exact ⟨'[', [']'], rfl, by decide, by decide⟩
    | cons => exact ⟨'[', _, rfl, by decide, by decide⟩
  | obj ms =>
    obtain _ | ⟨⟨k, v⟩, ms⟩ := ms
    · exact ⟨'\x7b', ['\x7d'], rfl, by decide, by decide⟩
    · exact ⟨'\x7b', _, rfl, by decide, by decide⟩

variable (fuel depth : Nat) (s : Str)

theorem parseValue_string :
    parseValue (fuel + 1) depth ('"' :: s) = (scanString s).map fun p => (.str p.1, p.2) := by
  rw [parseValue, skipSpace_of_not_space _ _ (by decide)]
  simp only [if_true]

theorem parseValue_array (c : Char) (other : isSpace c = false ∧ c ≠ ']') :
    parseValue (fuel + 1) (depth + 1) ('[' :: c :: s) =
      (parseElems fuel depth (c :: s)).map fun p => (.arr p.1, p.2) := by
  rw [parseValue, skipSpace_of_not_space _ _ (by decide)]
  simp only
  rw [if_neg (by decide), if_pos True.intro, skipSpace_of_not_space _ _ other.1]
  split
  · next same =>
    cases same
    exact absurd rfl other.2
  · rfl

theorem parseValue_object : parseValue (fuel + 1) (depth + 1) ('\x7b' :: '"' :: s) =
      (parseMembers fuel depth ('"' :: s)).map fun p => (.obj p.1, p.2) := by
  rw [parseValue, skipSpace_of_not_space _ _ (by decide)]
  simp only
  rw [if_neg (by decide), if_neg (by decide), if_pos True.intro,
    skipSpace_of_not_space _ _ (by decide)]
  rfl

theorem parseValue_number (c : Char) (first : isDigit c = true ∨ c = '-') :
    parseValue (fuel + 1) depth (c :: s) = (scanNumber (c :: s)).map fun p => (.num p.1, p.2) := by
  obtain ⟨space, quote, bracket, brace, t, f, n, -⟩ := digit_cases c first
  rw [parseValue, skipSpace_of_not_space _ _ space]
  simp only [quote, bracket, brace, t, f, n, if_false]

mutual

/-- What is read after the value only has to end a number. -/
theorem parseValue_render (w : Raw) (fuel depth : Nat) (rest : Str) (nested : w.nesting ≤ depth)
    (enough : w.render.length ≤ fuel) (stops : StopsNumber rest) :
    parseValue fuel depth (w.render ++ rest) = some (w, rest) := by
  obtain ⟨c, s, head, -⟩ := render_head w
  obtain ⟨fuel, rfl⟩ : ∃ n, fuel = n + 1 := by
    rw [head, length_cons] at enough
    exact ⟨fuel - 1, by omega⟩
  cases w with
  | null => rfl
  | bool b => cases b <;> rfl
  | num lit =>
    obtain ⟨d, t, split, first⟩ := numLit_head lit
    have scanned := scanNumber_lit lit rest stops
    rw [split] at scanned
    rw [render, split, cons_append, parseValue_number fuel depth _ d first]
    rw [cons_append] at scanned
    rw [scanned]
    rfl
  | str es =>
    have text : (str es).render ++ rest = '"' :: (renderElems es ++ '"' :: rest) := by
      simp [render, quoted]
    rw [text, parseValue_string, scanString_quoted]
    rfl
  | arr xs =>
    obtain ⟨depth, rfl⟩ : ∃ n, depth = n + 1 := ⟨depth - 1, by rw [nesting] at nested; omega⟩
    cases xs with
    | nil => rfl
    | cons x xs =>
      obtain ⟨d, t, first, solid⟩ := render_head x
      have inner := parseElems_render x xs fuel depth rest
        (by rw [nesting] at nested; omega)
        (by simp only [render, length_cons, cons_append] at enough; omega)
      simp only [first, cons_append] at inner
      simp only [render, first, cons_append]
      rw [parseValue_array fuel depth _ d solid, inner]
      rfl
  | obj ms =>
    obtain ⟨depth, rfl⟩ : ∃ n, depth = n + 1 := ⟨depth - 1, by rw [nesting] at nested; omega⟩
    obtain _ | ⟨⟨k, v⟩, ms⟩ := ms
    · rfl
    · have inner := parseMembers_render k v ms fuel depth rest
        (by rw [nesting] at nested; omega)
        (by simp only [render, length_cons, cons_append] at enough; omega)
      simp only [quoted, cons_append] at inner
      simp only [render, quoted, cons_append]
      rw [parseValue_object, inner]
      rfl
  termination_by fuel
  decreasing_by all_goals omega

theorem parseElems_render (x : Raw) (xs : List Raw) (fuel depth : Nat) (rest : Str)
    (nested : nestingElems (x :: xs) ≤ depth) (enough : (x.render ++ renderRest xs).length ≤ fuel) :
    parseElems fuel depth (x.render ++ renderRest xs ++ rest) = some (x :: xs, rest) := by
  rw [nestingElems] at nested
  rw [length_append] at enough
  have more := renderRest_length xs
  obtain ⟨fuel, rfl⟩ : ∃ n, fuel = n + 1 := ⟨fuel - 1, by omega⟩
  have first := parseValue_render x fuel depth (renderRest xs ++ rest) (by omega) (by omega)
    (renderRest_stops xs rest)
  rw [parseElems, append_assoc, first]
  cases xs with
  | nil => rfl
  | cons y ys =>
    rw [nestingElems] at nested
    have tail := parseElems_render y ys fuel depth rest (by rw [nestingElems]; omega)
      (by simp only [renderRest, length_cons, length_append] at enough ⊢; omega)
    simp only [renderRest, cons_append]
    rw [skipSpace_of_not_space _ _ (by decide)]
    simp only [tail]
    rfl
  termination_by fuel
  decreasing_by all_goals omega

theorem parseMembers_render (k : List Elem) (v : Raw) (ms : List (List Elem × Raw))
    (fuel depth : Nat) (rest : Str) (nested : nestingMembers ((k, v) :: ms) ≤ depth)
    (enough : (quoted k ++ ':' :: v.render ++ renderMore ms).length ≤ fuel) :
    parseMembers fuel depth (quoted k ++ ':' :: v.render ++ renderMore ms ++ rest) =
      some ((k, v) :: ms, rest) := by
  rw [nestingMembers] at nested
  simp only [length_append, length_cons] at enough
  have more := renderMore_length ms
  obtain ⟨fuel, rfl⟩ : ∃ n, fuel = n + 1 := ⟨fuel - 1, by omega⟩
  have value := parseValue_render v fuel depth (renderMore ms ++ rest) (by omega) (by omega)
    (renderMore_stops ms rest)
  have text : quoted k ++ ':' :: v.render ++ renderMore ms ++ rest =
      '"' :: (renderElems k ++ '"' :: ':' :: (v.render ++ (renderMore ms ++ rest))) := by
    simp [quoted]
  rw [text, parseMembers, skipSpace_of_not_space _ _ (by decide)]
  simp only [scanString_quoted]
  rw [skipSpace_of_not_space _ _ (by decide)]
  simp only [value]
  obtain _ | ⟨⟨k', v'⟩, ms⟩ := ms
  · rfl
  · rw [nestingMembers] at nested
    have tail := parseMembers_render k' v' ms fuel depth rest (by rw [nestingMembers]; omega)
      (by simp only [renderMore, length_cons, length_append] at enough ⊢; omega)
    simp only [renderMore, cons_append]
    rw [skipSpace_of_not_space _ _ (by decide)]
    simp only [tail]
    rfl
  termination_by fuel
  decreasing_by all_goals omega

end

theorem parse_render (w : Raw) (rest : Str) (nested : w.nesting ≤ maxNestingDepth)
    (stops : StopsNumber rest) : parse (w.render ++ rest) = some (w, rest) :=
  parseValue_render w _ _ rest nested (by simp) stops

theorem parseAll_render (w : Raw) (nested : w.nesting ≤ maxNestingDepth) :
    parseAll w.render = some w := by
  have parsed := parse_render w [] nested stopsNumber_nil
  rw [append_nil] at parsed
  rw [parseAll, parsed]
  rfl

mutual

/-- What `json.Marshal` writes for a `json.RawMessage`. -/
def Raw.escapeHtml : Raw → Raw
  | .str es => .str (es.map Elem.escapeHtml)
  | .arr xs => .arr (escapeHtmlElems xs)
  | .obj ms => .obj (escapeHtmlMembers ms)
  | w => w

def escapeHtmlElems : List Raw → List Raw
  | [] => []
  | x :: xs => x.escapeHtml :: escapeHtmlElems xs

def escapeHtmlMembers : List (List Elem × Raw) → List (List Elem × Raw)
  | [] => []
  | (k, v) :: ms => (k.map Elem.escapeHtml, v.escapeHtml) :: escapeHtmlMembers ms

end

mutual

theorem escapeHtml_same (w : Raw) :
    w.escapeHtml.value = w.value ∧ w.escapeHtml.nesting = w.nesting := by
  cases w with
  | str => simp [escapeHtml, value, nesting, unquote_escapeHtml]
  | arr xs => simp [escapeHtml, value, nesting, escapeHtmlElems_same xs]
  | obj ms => simp [escapeHtml, value, nesting, escapeHtmlMembers_same ms]
  | null | bool | num => exact ⟨rfl, rfl⟩

theorem escapeHtmlElems_same (xs : List Raw) : valueElems (escapeHtmlElems xs) = valueElems xs ∧
    nestingElems (escapeHtmlElems xs) = nestingElems xs := by
  match xs with
  | [] => exact ⟨rfl, rfl⟩
  | x :: xs =>
    simp [escapeHtmlElems, valueElems, nestingElems, escapeHtml_same x, escapeHtmlElems_same xs]

theorem escapeHtmlMembers_same (ms : List (List Elem × Raw)) :
    valueMembers (escapeHtmlMembers ms) = valueMembers ms ∧
      nestingMembers (escapeHtmlMembers ms) = nestingMembers ms := by
  match ms with
  | [] => exact ⟨rfl, rfl⟩
  | (k, v) :: ms =>
    simp [escapeHtmlMembers, valueMembers, nestingMembers, escapeHtml_same v,
      escapeHtmlMembers_same ms, unquote_escapeHtml]

end

theorem value_escapeHtml (w : Raw) : w.escapeHtml.value = w.value := (escapeHtml_same w).1

theorem nesting_escapeHtml (w : Raw) : w.escapeHtml.nesting = w.nesting := (escapeHtml_same w).2

def sortKeys {β : Type} (m : Map β) : Map β := m.insertionSort fun p q => p.1 ≤ q.1

variable (m : Map Raw)

def rawObject : Raw := .obj ((sortKeys m).map fun p => (encodeString p.1, p.2.escapeHtml))

/-- `json.Marshal` of a `map[string]json.RawMessage`. -/
def marshalRawMap : Str := (rawObject m).render

def joinComma : List Str → Str
  | [] => []
  | [s] => s
  | s :: rest => s ++ ',' :: joinComma rest

mutual

/-- `json.Marshal`, where literals have the digits that Go prints. -/
def Value.marshal : Value → Str
  | .null => "null"
  | .bool true => "true"
  | .bool false => "false"
  | .num lit => lit.1
  | .str s => quoted (encodeString s)
  | .arr xs => '[' :: joinComma (marshalElems xs) ++ [']']
  | .obj m =>
    '\x7b' :: joinComma ((sortKeys (marshalMembers m)).map fun p =>
      quoted (encodeString p.1) ++ ':' :: p.2) ++ ['\x7d']

def marshalElems : List Value → List Str
  | [] => []
  | x :: xs => x.marshal :: marshalElems xs

def marshalMembers : List (Str × Value) → List (Str × Str)
  | [] => []
  | (k, v) :: m => (k, v.marshal) :: marshalMembers m

end

theorem nestingMembers_le (depth : Nat)
    (each : ∀ p ∈ ms, p.2.nesting ≤ depth) : nestingMembers ms ≤ depth := by
  induction ms with
  | nil => exact zero_le _
  | cons p ms ih =>
    obtain ⟨k, v⟩ := p
    exact max_le (each _ mem_cons_self)
      (ih fun p mem => each p (mem_cons_of_mem _ mem))

theorem nesting_le_of_mem (depth : Nat)
    (all : nestingMembers ms ≤ depth) (p : List Elem × Raw) (member : p ∈ ms) :
    p.2.nesting ≤ depth := by
  induction ms with
  | nil => cases member
  | cons q ms ih =>
    obtain ⟨k, v⟩ := q
    have parts := Nat.max_le.mp all
    obtain rfl | member := mem_cons.mp member
    · exact parts.1
    · exact ih parts.2 member

theorem rawObject_nesting (nested : ∀ p ∈ m, p.2.nesting < maxNestingDepth) :
    (rawObject m).nesting ≤ maxNestingDepth := by
  refine succ_le_of_lt (lt_of_le_pred (by decide) (nestingMembers_le _ _ ?_))
  intro p mem
  obtain ⟨q, inside, rfl⟩ := mem_map.mp mem
  have bound := nested q ((mem_insertionSort _).mp inside)
  rw [nesting_escapeHtml]
  exact le_pred_of_lt bound

theorem rawObject_lookup (distinct : Distinct m) (k : Str) :
    (rawObject m).toMap.1.lookup k = (m.lookup k).map value := by
  have values : valueMembers ((sortKeys m).map fun p => (encodeString p.1, p.2.escapeHtml)) =
      (sortKeys m).map fun p => (p.1, p.2.value) := by
    simp [valueMembers_eq, Function.comp_def, unquote_encodeString, value_escapeHtml]
  have perm : (sortKeys m).reverse.Perm m := (reverse_perm _).trans (perm_insertionSort _ m)
  rw [rawObject, toMap, values, lookup_mapOf, ← map_reverse, lookup_map,
    lookup_perm _ m ((perm.map Prod.fst).nodup_iff.mpr distinct) perm]

theorem parse_marshalRawMap (nested : ∀ p ∈ m, p.2.nesting < maxNestingDepth) :
    parse (marshalRawMap m) = some (rawObject m, []) := by
  have parsed := parse_render (rawObject m) [] (rawObject_nesting m nested) stopsNumber_nil
  rw [append_nil] at parsed
  exact parsed

end Vissr.Json
