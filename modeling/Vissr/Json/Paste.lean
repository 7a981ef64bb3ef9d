import Vissr.Json.RoundTrip

/-! JSON pasted together from texts, which is read back as meant where they need no escapes. -/

namespace Vissr.Json

open List Nat Raw

variable (s : Str)

/-- A text that can stand between quotes as it is. -/
def PlainText : Prop := ∀ c ∈ s, isPlain c = true

instance : Decidable (PlainText s) := decidableBAll _ _

def literal : List Elem :=
  s.filterMap fun c => if plain : isPlain c = true then some (.plain ⟨c, plain⟩) else none

def pasted : Str := '"' :: s ++ ['"']

theorem plainText_itoa (n : Int) : PlainText (itoa n) := by
  intro c mem
  obtain digit | rfl := itoa_chars n c mem
  · simp only [Char.isDigit, Bool.and_eq_true, decide_eq_true_eq] at digit
    simp only [isPlain, Bool.and_eq_true, decide_eq_true_eq]
    refine ⟨⟨?_, ?_⟩, ?_⟩
    · rintro rfl
      revert digit
      decide
    · rintro rfl
      revert digit
      decide
    · have low : 48 ≤ c.toNat := digit.1
      omega
  · decide

theorem PlainText.tail {c : Char} {s : Str} (plain : PlainText (c :: s)) : PlainText s :=
  fun d mem => plain d (mem_cons_of_mem _ mem)

theorem literal_cons (c : Char) (s : Str) (plain : isPlain c = true) :
    literal (c :: s) = .plain ⟨c, plain⟩ :: literal s := by
  simp [literal, plain]

theorem renderElems_literal (plain : PlainText s) : renderElems (literal s) = s := by
  induction s with
  | nil => rfl
  | cons c s ih =>
    rw [literal_cons c s (plain c mem_cons_self), renderElems, flatMap_cons]
    exact congrArg (c :: ·) (ih plain.tail)

theorem quoted_encodeString (plain : PlainText s) (html : ∀ c ∈ s, isHtml c = false) :
    quoted (encodeString s) = pasted s := by
  have same : renderElems (encodeString s) = s := by
    induction s with
    | nil => rfl
    | cons c s ih =>
      have first : encodeChar c = .plain ⟨c, plain c mem_cons_self⟩ := by
        rw [encodeChar, html c mem_cons_self, if_neg Bool.false_ne_true,
          dif_pos (plain c mem_cons_self)]
      have rest := ih plain.tail fun d mem => html d (mem_cons_of_mem _ mem)
      rw [encodeString, map_cons, first]
      exact congrArg (c :: ·) rest
  rw [quoted, same, pasted]

theorem unquote_literal (plain : PlainText s) : unquote (literal s) = s := by
  have codes : (literal s).map Elem.code = s.map Code.char := by
    induction s with
    | nil => rfl
    | cons c s ih =>
      rw [literal_cons c s (plain c mem_cons_self), map_cons, map_cons, ih plain.tail]
      rfl
  rw [unquote, codes, combine_chars]

theorem scanString_plain (s rest : Str) (plain : PlainText s) :
    scanString (s ++ '"' :: rest) = some (literal s, rest) := by
  have scanned := scanString_quoted (literal s) rest
  rwa [renderElems_literal s plain] at scanned

/-- A text is read as a value, whatever follows it. -/
def Reads (w : Raw) (s : Str) : Prop :=
  ∀ fuel depth rest, s.length ≤ fuel → w.nesting ≤ depth → StopsNumber rest →
    parseValue fuel depth (s ++ rest) = some (w, rest)

theorem reads_pasted (plain : PlainText s) : Reads (.str (literal s)) (pasted s) := by
  intro fuel depth rest enough nested stops
  obtain ⟨fuel, rfl⟩ : ∃ n, fuel = n + 1 := ⟨fuel - 1, by simp [pasted] at enough; omega⟩
  have text : pasted s ++ rest = '"' :: (s ++ '"' :: rest) := by simp [pasted]
  rw [text, parseValue_string, scanString_plain s rest plain]
  rfl

variable (fuel depth : Nat)

theorem parseValue_space (s : Str) :
    parseValue fuel depth (' ' :: s) = parseValue fuel depth s := by
  cases fuel with
  | zero => rfl
  | succ =>
    have skipped : skipSpace (' ' :: s) = skipSpace s := rfl
    rw [parseValue, parseValue, skipped]

theorem parseElems_space (s : Str) :
    parseElems fuel depth (' ' :: s) = parseElems fuel depth s := by
  cases fuel with
  | zero => rfl
  | succ => rw [parseElems, parseElems, parseValue_space]

variable (ss : List Str)

def pastedMore : Str := ss.flatMap fun s => ',' :: ' ' :: pasted s

theorem parseElems_pasted (ss : List Str) (plain : ∀ t ∈ s :: ss, PlainText t)
    (fuel depth : Nat) (rest : Str) (enough : (pasted s ++ pastedMore ss).length < fuel) :
    parseElems fuel depth (pasted s ++ (pastedMore ss ++ ']' :: rest)) =
      some ((s :: ss).map fun t => .str (literal t), rest) := by
  induction ss generalizing s fuel with
  | nil =>
    obtain ⟨fuel, rfl⟩ : ∃ n, fuel = n + 1 := ⟨fuel - 1, by omega⟩
    have first := reads_pasted s (plain s mem_cons_self) fuel depth (']' :: rest)
      (by simp [pastedMore] at enough; omega) (zero_le _) (stopsNumber_cons _ _ (by decide))
    rw [parseElems]
    simp only [pastedMore, flatMap_nil, nil_append, first]
    rw [skipSpace_of_not_space _ _ (by decide)]
    rfl
  | cons t ss ih =>
    obtain ⟨fuel, rfl⟩ : ∃ n, fuel = n + 1 := ⟨fuel - 1, by omega⟩
    have more : pastedMore (t :: ss) ++ ']' :: rest =
        ',' :: ' ' :: (pasted t ++ (pastedMore ss ++ ']' :: rest)) := by
      simp [pastedMore]
    have length : (pastedMore (t :: ss)).length = (pasted t ++ pastedMore ss).length + 2 := by
      simp [pastedMore]
    rw [length_append, length] at enough
    have first := reads_pasted s (plain s mem_cons_self) fuel depth
      (',' :: ' ' :: (pasted t ++ (pastedMore ss ++ ']' :: rest))) (by omega) (zero_le _)
      (stopsNumber_cons _ _ (by decide))
    have tail := ih t (fun u mem => plain u (mem_cons_of_mem _ mem)) fuel (by omega)
    rw [more, parseElems]
    simp only [first]
    rw [skipSpace_of_not_space _ _ (by decide)]
    simp only [parseElems_space, tail]
    rfl

def pastedArray : List Str → Str
  | [] => "[]"
  | s :: ss => '[' :: pasted s ++ (pastedMore ss ++ [']'])

def literals : Raw := .arr (ss.map fun s => .str (literal s))

theorem reads_pastedArray (plain : ∀ s ∈ ss, PlainText s) :
    Reads (literals ss) (pastedArray ss) := by
  intro fuel depth rest enough nested stops
  obtain ⟨depth, rfl⟩ : ∃ n, depth = n + 1 := ⟨depth - 1, by rw [literals, nesting] at nested; omega⟩
  cases ss with
  | nil =>
    obtain ⟨fuel, rfl⟩ : ∃ n, fuel = n + 1 := ⟨fuel - 1, by simp [pastedArray] at enough; omega⟩
    rfl
  | cons s ss =>
    have text : pastedArray (s :: ss) ++ rest =
        '[' :: '"' :: (s ++ ['"'] ++ (pastedMore ss ++ ']' :: rest)) := by
      simp [pastedArray, pasted]
    simp only [pastedArray, length_cons, length_append, cons_append] at enough
    obtain ⟨fuel, rfl⟩ : ∃ n, fuel = n + 1 := ⟨fuel - 1, by omega⟩
    have inner := parseElems_pasted s ss plain fuel depth rest
      (by rw [length_append]; omega)
    rw [text, parseValue_array fuel depth _ '"' (by decide)]
    have same : '"' :: (s ++ ['"'] ++ (pastedMore ss ++ ']' :: rest)) =
        pasted s ++ (pastedMore ss ++ ']' :: rest) := rfl
    rw [same, inner]
    rfl

theorem literals_nesting : (literals ss).nesting = 1 := by
  have flat : nestingElems (ss.map fun s => .str (literal s)) = 0 := by
    induction ss with
    | nil => rfl
    | cons s ss ih => simp [nestingElems, nesting, ih]
  rw [literals, nesting, flat]

theorem literals_inRange : (literals ss).inRange = true := by
  rw [literals, inRange]
  induction ss with
  | nil => rfl
  | cons s ss ih => simp [inRangeElems, inRange, ih]

theorem literals_value (plain : ∀ s ∈ ss, PlainText s) :
    (literals ss).value = .arr (ss.map .str) := by
  rw [literals, value]
  congr 1
  induction ss with
  | nil => rfl
  | cons s ss ih =>
    rw [map_cons, valueElems, ih fun t mem => plain t (mem_cons_of_mem _ mem),
      value, unquote_literal s (plain s mem_cons_self), map_cons]

def pastedMember (key value : Str) : Str := pasted key ++ ':' :: value

def joinedMembers (gap : Str) (ms : List (Str × Raw × Str)) : Str :=
  ms.flatMap fun m => ',' :: (gap ++ pastedMember m.1 m.2.2)

variable (ms : List (Str × Raw × Str))

def moreMembers : Str := ms.flatMap fun m => ',' :: pastedMember m.1 m.2.2

theorem parseMembers_member (k : Str) (v : Raw) (s : Str) (plain : PlainText k) (reads : Reads v s)
    (fuel depth : Nat) (c : Char) (tail : Str) (nested : v.nesting ≤ depth)
    (enough : s.length ≤ fuel) (next : c = ',' ∨ c = '\x7d') :
    parseMembers (fuel + 1) depth (pastedMember k s ++ c :: tail) =
      if c = ',' then (parseMembers fuel depth tail).map fun p => ((literal k, v) :: p.1, p.2)
      else some ([(literal k, v)], tail) := by
  have stops : StopsNumber (c :: tail) := by
    apply stopsNumber_cons
    rcases next with rfl | rfl <;> decide
  have value := reads fuel depth (c :: tail) enough nested stops
  have text : pastedMember k s ++ c :: tail = '"' :: (k ++ '"' :: ':' :: (s ++ c :: tail)) := by
    simp [pastedMember, pasted]
  rw [text, parseMembers, skipSpace_of_not_space _ _ (by decide)]
  simp only [scanString_plain k _ plain]
  rw [skipSpace_of_not_space _ _ (by decide)]
  simp only [value]
  obtain rfl | rfl := next
  · rw [skipSpace_of_not_space _ _ (by decide)]
    rfl
  · rw [skipSpace_of_not_space _ _ (by decide)]
    rfl

def pastedObject (k s : Str) (ms : List (Str × Raw × Str)) : Str :=
  '\x7b' :: pastedMember k s ++ (moreMembers ms ++ ['\x7d'])

theorem inRangeMembers_map (range : ∀ m ∈ ms, m.2.1.inRange = true) :
    inRangeMembers (ms.map fun m => (literal m.1, m.2.1)) = true := by
  rw [inRangeMembers_iff, forall_mem_map]
  exact range

theorem valueMembers_literal (plain : ∀ m ∈ ms, PlainText m.1) :
    valueMembers (ms.map fun m => (literal m.1, m.2.1)) = ms.map fun m => (m.1, m.2.1.value) := by
  rw [valueMembers_eq, map_map]
  apply map_congr_left
  intro m mem
  simp only [Function.comp_apply]
  rw [unquote_literal m.1 (plain m mem)]

variable {s k k' : Str} {ms : List (Str × Raw × Str)}

theorem Reads.space {w : Raw} (reads : Reads w s) : Reads w (' ' :: s) := by
  intro fuel depth rest enough nested stops
  rw [cons_append, parseValue_space]
  exact reads fuel depth rest (le_of_succ_le enough) nested stops

theorem parseMembers_space (s : Str) :
    parseMembers fuel depth (' ' :: s) = parseMembers fuel depth s := by
  cases fuel with
  | zero => rfl
  | succ =>
    have skipped : skipSpace (' ' :: s) = skipSpace s := rfl
    rw [parseMembers, parseMembers, skipped]

def spacedMembers (ms : List (Str × Raw × Str)) : Str :=
  ms.flatMap fun m => ',' :: ' ' :: pastedMember m.1 m.2.2

def spacedObject (k s : Str) (ms : List (Str × Raw × Str)) : Str :=
  '\x7b' :: pastedMember k s ++ (spacedMembers ms ++ ['\x7d'])

def membersObject (ms : List (Str × Raw × Str)) : Raw := .obj (ms.map fun m => (literal m.1, m.2.1))

theorem nesting_of_mem {depth : Nat} (nested : (membersObject ms).nesting ≤ depth + 1) :
    ∀ m ∈ ms, m.2.1.nesting ≤ depth := by
  intro m mem
  have inside : (literal m.1, m.2.1) ∈ ms.map fun m => (literal m.1, m.2.1) := mem_map_of_mem mem
  exact nesting_le_of_mem _ depth (le_of_succ_le_succ nested) _ inside

theorem membersObject_nesting {depth : Nat} (each : ∀ m ∈ ms, m.2.1.nesting ≤ depth) :
    (membersObject ms).nesting ≤ depth + 1 := by
  refine succ_le_succ (nestingMembers_le _ _ ?_)
  intro p mem
  obtain ⟨m, inside, rfl⟩ := mem_map.mp mem
  exact each m inside

theorem parseAll_of_reads {w : Raw} (reads : Reads w s) (nested : w.nesting ≤ maxNestingDepth) :
    parseAll s = some w := by
  have parsed := reads s.length maxNestingDepth [] (le_refl _) nested stopsNumber_nil
  rw [append_nil] at parsed
  rw [parseAll, parse, parsed]
  rfl

theorem unmarshalMap_of_reads (reads : Reads (membersObject ms) s)
    (plain : ∀ m ∈ ms, PlainText m.1) (nested : (membersObject ms).nesting ≤ maxNestingDepth)
    (range : ∀ m ∈ ms, m.2.1.inRange = true) :
    unmarshalMap s = some (mapOf (ms.map fun m => (m.1, m.2.1.value))) := by
  have values := valueMembers_literal ms plain
  rw [unmarshalMap, parseAll_of_reads reads nested]
  have inside := inRangeMembers_map ms range
  simp only [membersObject, toMap, inside, values]
  rfl

section

variable {gap : Str}
  (skip : ∀ fuel depth s, parseMembers fuel depth (gap ++ s) = parseMembers fuel depth s)
  (k : Str) (v : Raw) (s : Str) (ms : List (Str × Raw × Str))
  (plain : ∀ m ∈ (k, v, s) :: ms, PlainText m.1) (reads : ∀ m ∈ (k, v, s) :: ms, Reads m.2.1 m.2.2)

include plain reads

include skip in
theorem parseMembers_joined (fuel depth : Nat) (rest : Str)
    (nested : ∀ m ∈ (k, v, s) :: ms, m.2.1.nesting ≤ depth)
    (enough : (pastedMember k s ++ joinedMembers gap ms).length < fuel) :
    parseMembers fuel depth (pastedMember k s ++ (joinedMembers gap ms ++ '\x7d' :: rest)) =
      some (((k, v, s) :: ms).map fun m => (literal m.1, m.2.1), rest) := by
  have here := mem_cons_self (a := (k, v, s)) (l := ms)
  have long : s.length < (pastedMember k s).length := by simp [pastedMember]; omega
  induction ms generalizing k v s fuel with
  | nil =>
    obtain ⟨fuel, rfl⟩ : ∃ n, fuel = n + 1 := ⟨fuel - 1, by omega⟩
    rw [length_append] at enough
    have member := parseMembers_member k v s (plain _ here) (reads _ here) fuel depth '\x7d' rest
      (nested _ here) (by omega) (.inr rfl)
    simpa [joinedMembers] using member
  | cons m ms ih =>
    obtain ⟨k', v', s'⟩ := m
    obtain ⟨fuel, rfl⟩ : ∃ n, fuel = n + 1 := ⟨fuel - 1, by omega⟩
    have more : joinedMembers gap ((k', v', s') :: ms) ++ '\x7d' :: rest =
        ',' :: (gap ++ (pastedMember k' s' ++ (joinedMembers gap ms ++ '\x7d' :: rest))) := by
      simp [joinedMembers]
    have length : (joinedMembers gap ((k', v', s') :: ms)).length =
        gap.length + (pastedMember k' s' ++ joinedMembers gap ms).length + 1 := by
      simp [joinedMembers]
    rw [length_append, length] at enough
    have member := parseMembers_member k v s (plain _ here) (reads _ here) fuel depth ','
      (gap ++ (pastedMember k' s' ++ (joinedMembers gap ms ++ '\x7d' :: rest))) (nested _ here)
      (by omega) (.inl rfl)
    have tail := ih k' v' s' (fun m member => plain m (mem_cons_of_mem _ member))
      (fun m member => reads m (mem_cons_of_mem _ member)) fuel
      (fun m member => nested m (mem_cons_of_mem _ member)) (by omega)
      mem_cons_self (by simp [pastedMember]; omega)
    rw [more, member, if_pos rfl, skip, tail]
    rfl

include skip in
theorem reads_joined : Reads (membersObject ((k, v, s) :: ms))
      ('\x7b' :: pastedMember k s ++ (joinedMembers gap ms ++ ['\x7d'])) := by
  intro fuel depth rest enough nested stops
  obtain - | depth := depth
  · simp [membersObject, nesting] at nested
  · have size : ('\x7b' :: pastedMember k s ++ (joinedMembers gap ms ++ ['\x7d'])).length =
        (pastedMember k s ++ joinedMembers gap ms).length + 1 + 1 := by
      simp
      omega
    obtain - | fuel := fuel
    · rw [size] at enough
      cases enough
    · have members := parseMembers_joined skip k v s ms plain reads fuel depth rest
        (nesting_of_mem nested) (by omega)
      have text : '\x7b' :: pastedMember k s ++ (joinedMembers gap ms ++ ['\x7d']) ++ rest =
          '\x7b' :: '"' :: (k ++ '"' :: ':' :: s ++ (joinedMembers gap ms ++ '\x7d' :: rest)) := by
        simp [pastedMember, pasted]
      have same : '"' :: (k ++ '"' :: ':' :: s ++ (joinedMembers gap ms ++ '\x7d' :: rest)) =
          pastedMember k s ++ (joinedMembers gap ms ++ '\x7d' :: rest) := by
        simp [pastedMember, pasted]
      rw [text, parseValue_object, same, members]
      rfl

theorem reads_spacedObject : Reads (membersObject ((k, v, s) :: ms)) (spacedObject k s ms) :=
  @reads_joined [' '] parseMembers_space k v s ms plain reads

theorem unmarshalMap_pastedObject
    (nested : ∀ m ∈ (k, v, s) :: ms, m.2.1.nesting < maxNestingDepth)
    (range : ∀ m ∈ (k, v, s) :: ms, m.2.1.inRange = true) : unmarshalMap (pastedObject k s ms) =
      some (mapOf (((k, v, s) :: ms).map fun m => (m.1, m.2.1.value))) := by
  refine unmarshalMap_of_reads ?_ plain ?_ range
  · exact @reads_joined [] (fun _ _ _ => rfl) k v s ms plain reads
  · apply @membersObject_nesting _ 9999
    intro m mem
    have deep := nested m mem
    rw [maxNestingDepth] at deep
    omega

end

theorem membersObject_value (plain : ∀ m ∈ ms, PlainText m.1) :
    (membersObject ms).value = .obj (mapOf (ms.map fun m => (m.1, m.2.1.value))) := by
  rw [membersObject, value, valueMembers_literal ms plain]

theorem plainKeys_pair {s' : Str} {v v' : Raw} (key : PlainText k) (key' : PlainText k') :
    ∀ m ∈ [(k, v, s), (k', v', s')], PlainText m.1 := by
  intro m mem
  simp only [mem_cons, not_mem_nil, or_false] at mem
  obtain rfl | rfl := mem
  · exact key
  · exact key'

theorem spacedObject_pair (k s k' s' : Str) (v' : Raw) : spacedObject k s [(k', v', s')] =
      "\x7b\"" ++ k ++ "\":" ++ s ++ ", \"" ++ k' ++ "\":" ++ s' ++
        ['\x7d'] := by
  simp [spacedObject, spacedMembers, pastedMember, pasted]

theorem reads_pair {s' : Str} {v v' : Raw} (key : PlainText k) (key' : PlainText k')
    (reads : Reads v s) (reads' : Reads v' s') :
    Reads (membersObject [(k, v, s), (k', v', s')]) (spacedObject k s [(k', v', s')]) := by
  refine reads_spacedObject k v s [(k', v', s')] (plainKeys_pair key key') ?_
  intro m mem
  simp only [mem_cons, not_mem_nil, or_false] at mem
  obtain rfl | rfl := mem
  · exact reads
  · exact reads'

theorem lookup_pair {v v' : Value} (different : k ≠ k') :
    (mapOf [(k, v), (k', v')]).lookup k = some v ∧
      (mapOf [(k, v), (k', v')]).lookup k' = some v' := by
  simp only [lookup_mapOf, reverse_cons, reverse_nil, nil_append, cons_append,
    lookup_cons, if_neg different, if_true, and_self]

end Vissr.Json
