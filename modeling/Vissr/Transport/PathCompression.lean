import Vissr.Common
import Vissr.Json.Paste

/-! The compression of paths: each is replaced by its index in the sorted list of the paths. -/

namespace Vissr.Transport

open Json List Nat

/-- `strings.Replace` for one occurrence. -/
def replaceFirst (s old new : Str) : Str :=
  match indexOf old s with
  | none => s
  | some i => s.take i ++ new ++ s.drop (i + old.length)

def packagePath : Value → Option Str
  | .obj m => getStr m "path"
  | _ => none

def responsePaths (respMap : Map Value) : List Str :=
  match respMap.lookup "data".toList with
  | some (.arr data) => data.filterMap packagePath
  | some data => (packagePath data).toList
  | none => []

def getSortedPaths (respMessage : Str) : List Str :=
  if (mapRequest respMessage).2 ≠ 0 then []
  else (responsePaths (mapRequest respMessage).1).insertionSort (· ≤ ·)

def compressPaths (respMessage : Str) (sortedList : List Str) : Str :=
  sortedList.zipIdx.foldl (fun message p => replaceFirst message p.1 (itoa p.2)) respMessage

/-- Paths between quotes, each after a text of its own. -/
def withPaths (pieces : List (Str × Str)) (last : Str) (write : Str → Str) : Str :=
  pieces.flatMap (fun p => p.1 ++ pasted (write p.2)) ++ last

def Answers (message : Str) (paths : List Str) : Prop :=
  (mapRequest message).2 = 0 ∧ responsePaths (mapRequest message).1 = paths

/-- In the places of the paths is what a decoder takes for them. -/
structure Response where
  pieces : List (Str × Str)
  last : Str
  written : Str → Str
  answers : Answers (withPaths pieces last written) (pieces.map Prod.snd)
  places : ∀ write : Str → Str, (∀ p ∈ pieces, PlainText (write p.2)) →
    Answers (withPaths pieces last write) (pieces.map fun p => write p.2)
  distinct : (pieces.map Prod.snd).Nodup

namespace Response

variable (r : Response)

def message : Str := withPaths r.pieces r.last r.written

def sorted : List Str := (r.pieces.map Prod.snd).insertionSort (· ≤ ·)

def position (path : Str) : Nat := r.sorted.idxOf path

/-- Nothing but the paths is changed, each to its index in the list. -/
def Compressed : Prop := compressPaths r.message (getSortedPaths r.message) =
    withPaths r.pieces r.last (fun path => itoa (r.position path)) ∧
      ∀ p ∈ r.pieces, (getSortedPaths r.message)[r.position p.2]? = some p.2

def stage (n : Nat) (path : Str) : Str :=
  if r.position path < n then itoa (r.position path) else path

/-- No path is escaped or occurs before its place, where earlier ones are indices. -/
def FirstInPlace : Prop :=
  ∀ us p vs, r.pieces = us ++ p :: vs → r.written p.2 = p.2 ∧ PlainText p.2 ∧
    ¬ p.2 <:+: withPaths us p.1 (r.stage (r.position p.2))

variable {r}

theorem sorted_perm : r.sorted ~ r.pieces.map Prod.snd := perm_insertionSort _ _

theorem mem_sorted {p : Str × Str} (mem : p ∈ r.pieces) : p.2 ∈ r.sorted :=
  sorted_perm.mem_iff.mpr (mem_map_of_mem mem)

theorem getSortedPaths_message : getSortedPaths r.message = r.sorted := by
  obtain ⟨read, paths⟩ := r.answers
  rw [message, getSortedPaths, if_neg (not_not.mpr read), paths, sorted]

theorem withPaths_split (us vs : List (Str × Str)) (p : Str × Str) (last : Str)
    (write : Str → Str) : withPaths (us ++ p :: vs) last write =
      withPaths us p.1 write ++ '"' :: (write p.2 ++ '"' :: withPaths vs last write) := by
  simp [withPaths, pasted]

theorem withPaths_congr {pieces : List (Str × Str)} (last : Str) {write write' : Str → Str}
    (same : ∀ p ∈ pieces, write p.2 = write' p.2) :
    withPaths pieces last write = withPaths pieces last write' := by
  rw [withPaths, withPaths, flatMap_congr fun p mem => by rw [same p mem]]

theorem replaceFirst_quoted {u t old : Str} (plain : PlainText old) (first : ¬ old <:+: u)
    (new : Str) : replaceFirst (u ++ '"' :: (old ++ t)) old new = u ++ '"' :: (new ++ t) := by
  have quote : '"' ∉ old := fun inside => absurd (plain _ inside) (by decide)
  rw [replaceFirst, indexOf_append_cons quote first]
  have text : u ++ '"' :: (old ++ t) = u ++ ['"'] ++ (old ++ t) := by simp
  have start : u.length + 1 = (u ++ ['"']).length := by simp
  simp only [text, start, take_left, ← drop_drop, drop_left]
  simp

theorem stage_succ {p q : Str × Str} (mem : q ∈ r.pieces) (other : q.2 ≠ p.2) :
    r.stage (r.position p.2) q.2 = r.stage (r.position p.2 + 1) q.2 := by
  have apart : r.position q.2 ≠ r.position p.2 :=
    fun same => other ((idxOf_inj (mem_sorted mem)).mp same)
  rw [stage, stage]
  congr 1
  exact propext (by omega)

theorem replace_stage (inPlace : r.FirstInPlace) {p : Str × Str} (mem : p ∈ r.pieces) :
    replaceFirst (withPaths r.pieces r.last (r.stage (r.position p.2))) p.2
        (itoa (r.position p.2)) =
      withPaths r.pieces r.last (r.stage (r.position p.2 + 1)) := by
  obtain ⟨us, vs, split⟩ := append_of_mem mem
  obtain ⟨-, plain, first⟩ := inPlace us p vs split
  have distinct := r.distinct
  rw [split, map_append, map_cons, nodup_middle, nodup_cons, ← map_append] at distinct
  have others : ∀ q ∈ us ++ vs,
      r.stage (r.position p.2) q.2 = r.stage (r.position p.2 + 1) q.2 := by
    intro q inside
    refine stage_succ ?_ fun same => distinct.1 (same ▸ mem_map_of_mem inside)
    rw [split]
    exact perm_middle.mem_iff.mpr (mem_cons_of_mem _ inside)
  have here : r.stage (r.position p.2) p.2 = p.2 := if_neg (lt_irrefl _)
  have next : r.stage (r.position p.2 + 1) p.2 = itoa (r.position p.2) := if_pos (lt_succ_self _)
  rw [split, withPaths_split, withPaths_split, here, next, replaceFirst_quoted plain first,
    withPaths_congr p.1 fun q inside => others q (mem_append_left _ inside),
    withPaths_congr r.last fun q inside => others q (mem_append_right _ inside)]

theorem compress_rest (inPlace : r.FirstInPlace) (done rest : List Str)
    (all : r.sorted = done ++ rest) :
    (rest.zipIdx done.length).foldl (fun message p => replaceFirst message p.1 (itoa p.2))
        (withPaths r.pieces r.last (r.stage done.length)) =
      withPaths r.pieces r.last (r.stage r.sorted.length) := by
  induction rest generalizing done with
  | nil => rw [all, append_nil]; rfl
  | cons path rest ih =>
    have known : path ∈ r.sorted := all ▸ mem_append_right _ mem_cons_self
    obtain ⟨p, mem, rfl⟩ := mem_map.mp (sorted_perm.mem_iff.mp known)
    have fresh : p.2 ∉ done := by
      have distinct := sorted_perm.nodup_iff.mpr r.distinct
      rw [all] at distinct
      exact fun inside => disjoint_of_nodup_append distinct inside mem_cons_self
    have place : r.position p.2 = done.length := by
      rw [position, all, idxOf_append_of_notMem fresh, idxOf_cons_self]
      rfl
    have round := replace_stage inPlace mem
    rw [place] at round
    rw [zipIdx_cons, foldl_cons, round]
    have later := ih (done ++ [p.2]) (by rw [all, append_assoc]; rfl)
    rwa [length_append] at later

/-- Paths that are first found in their own places are replaced there. -/
theorem compressed_of_first (r : Response) (inPlace : r.FirstInPlace) : r.Compressed := by
  have before : r.message = withPaths r.pieces r.last (r.stage 0) := by
    refine withPaths_congr _ fun p member => ?_
    obtain ⟨us, vs, split⟩ := append_of_mem member
    exact (inPlace us p vs split).1
  have after : withPaths r.pieces r.last (r.stage r.sorted.length) =
      withPaths r.pieces r.last fun path => itoa (r.position path) :=
    withPaths_congr _ fun p member => if_pos (idxOf_lt_length_of_mem (mem_sorted member))
  rw [Compressed, getSortedPaths_message]
  refine ⟨?_, fun p member => getElem?_idxOf (mem_sorted member)⟩
  rw [before, ← after]
  exact compress_rest inPlace [] r.sorted rfl

end Response

/-- A package whose value is the text A. -/
def valuePieces (path : Str) : List (Str × Str) :=
  [("\x7b\"data\":\x7b\"dp\":\"A\",\"path\":", path)]

theorem value_answers {write : Str → Str} {path : Str} (plain : PlainText (write path)) :
    Answers (withPaths (valuePieces path) "\x7d\x7d" write) [write path] := by
  let w : Raw := .obj [(literal "data", .obj
    [(literal "dp", .str (literal "A")), (literal "path", .str (literal (write path)))])]
  have text : withPaths (valuePieces path) "\x7d\x7d" write = w.render := by
    simp (disch := decide) only [w, Raw.render, renderMore, quoted, renderElems_literal _ plain,
      renderElems_literal]
    simp [withPaths, valuePieces, pasted]
  have parsed := parse_render w [] (by simp [w, Raw.nesting, nestingMembers, maxNestingDepth])
    stopsNumber_nil
  rw [append_nil, ← text] at parsed
  simp (disch := decide) only [Answers, mapRequest, parsed, w, Raw.toMap, valueMembers, Raw.value,
    unquote_literal _ plain, unquote_literal, inRangeMembers, Raw.inRange]
  exact ⟨rfl, rfl⟩

def valueResponse (path : Str) (plain : PlainText path) : Response where
  pieces := valuePieces path
  last := "\x7d\x7d"
  written := id
  answers := value_answers plain
  places := fun _ plain => value_answers (plain _ mem_cons_self)
  distinct := nodup_singleton _

/-- The second path is part of the first. -/
def speedPieces : List (Str × Str) :=
  [("\x7b\"data\":[\x7b\"path\":", "A.Speed"), ("\x7d,\x7b\"path\":", "Speed")]

theorem speed_answers {write : Str → Str} (plain : ∀ p ∈ speedPieces, PlainText (write p.2)) :
    Answers (withPaths speedPieces "\x7d]\x7d" write) (speedPieces.map fun p => write p.2) := by
  let w : Raw := .obj [(literal "data", .arr
    [.obj [(literal "path", .str (literal (write "A.Speed")))],
      .obj [(literal "path", .str (literal (write "Speed")))]])]
  have first : PlainText (write "A.Speed") := plain _ mem_cons_self
  have second : PlainText (write "Speed") := plain _ (mem_cons_of_mem _ mem_cons_self)
  have text : withPaths speedPieces "\x7d]\x7d" write = w.render := by
    simp (disch := decide) only [w, Raw.render, renderMore, renderRest, quoted,
      renderElems_literal _ first, renderElems_literal _ second, renderElems_literal]
    simp [withPaths, speedPieces, pasted]
  have parsed := parse_render w []
    (by simp [w, Raw.nesting, nestingMembers, nestingElems, maxNestingDepth]) stopsNumber_nil
  rw [append_nil, ← text] at parsed
  simp (disch := decide) only [Answers, mapRequest, parsed, w, Raw.toMap, valueMembers, valueElems,
    Raw.value, unquote_literal _ first, unquote_literal _ second, unquote_literal, inRangeMembers,
    inRangeElems, Raw.inRange]
  exact ⟨rfl, rfl⟩

def speedResponse : Response where
  pieces := speedPieces
  last := "\x7d]\x7d"
  written := id
  answers := speed_answers (by decide)
  places := fun _ => speed_answers
  distinct := by decide

theorem compressed_of_first_speed : speedResponse.message =
      "\x7b\"data\":[\x7b\"path\":\"A.Speed\"\x7d,\x7b\"path\":\"Speed\"\x7d]\x7d" ∧
    compressPaths speedResponse.message (getSortedPaths speedResponse.message) =
      "\x7b\"data\":[\x7b\"path\":\"0\"\x7d,\x7b\"path\":\"1\"\x7d]\x7d" := by
  have inPlace : speedResponse.FirstInPlace := by
    intro us p vs split
    rcases us with _ | ⟨u, us⟩
    · cases split
      exact ⟨rfl, by decide, by decide +kernel⟩
    · rcases us with _ | ⟨u', us⟩
      · cases split
        exact ⟨rfl, by decide, by decide +kernel⟩
      · simp [speedResponse, speedPieces] at split
  exact ⟨rfl, (Response.compressed_of_first _ inPlace).1⟩

/-- The value is changed in place of the path. -/
theorem value_compressed : ¬ (valueResponse "A" (by decide)).Compressed := by
  rw [Response.Compressed, Response.getSortedPaths_message]
  decide +kernel

end Vissr.Transport
