import Mathlib

/-! Polylines through some samples of a curve, when they follow it, and the choice of the samples. -/

namespace Vissr.Polyline

open List Option List.Pairwise

/-! ### Lines and polylines -/

structure Point (K : Type*) where
  time : K
  value : K
  deriving DecidableEq

section Line

variable {K : Type*} [Field K] (p q : Point K)

def lineAt (t : K) : K := p.value + (q.value - p.value) / (q.time - p.time) * (t - p.time)

@[simp] theorem lineAt_left : lineAt p q p.time = p.value := by
  rw [lineAt, sub_self, mul_zero, add_zero]

theorem lineAt_right {p q : Point K} (apart : p.time ≠ q.time) : lineAt p q q.time = q.value := by
  have gap : q.time - p.time ≠ 0 := sub_ne_zero.mpr apart.symm
  rw [lineAt, div_mul_cancel₀ _ gap, add_sub_cancel]

theorem lineAt_comm {p q : Point K} (apart : p.time ≠ q.time) (t : K) :
    lineAt p q t = lineAt q p t := by
  have gap : q.time - p.time ≠ 0 := sub_ne_zero.mpr apart.symm
  have back : p.time - q.time ≠ 0 := sub_ne_zero.mpr apart
  rw [lineAt, lineAt]
  field_simp
  ring

theorem lineAt_shift (t base : K) :
    lineAt ⟨p.time - base, p.value⟩ ⟨q.time - base, q.value⟩ (t - base) = lineAt p q t := by
  simp only [lineAt, sub_sub_sub_cancel_right]

variable [LE K] [DecidableLE K]

def valueAt : List (Point K) → K → K
  | [], _ => 0
  | [p], _ => p.value
  | p :: q :: rest, t => if t ≤ q.time then lineAt p q t else valueAt (q :: rest) t

end Line

/-! ### Following the samples -/

section Covers

variable {S : Type*} (Within : S → S → S → Prop)

/-- A sample between two of the kept vertices is within the bound of their line, from `p` on; some
samples are left. -/
inductive Covers : S → List S → List S → S → List S → Prop
  | stay (p : S) (left : List S) : Covers p left [] p left
  | advance {p q r : S} {mids rest kept left : List S} (close : ∀ s ∈ mids, Within p q s)
      (more : Covers q rest kept r left) : Covers p (mids ++ q :: rest) (q :: kept) r left

variable {Within} {p q r : S} {rest kept left : List S}

section

variable (covers : Covers Within p rest kept r left)

include covers

theorem Covers.sublist : kept.Sublist rest := by
  induction covers with
  | stay p left => exact nil_sublist left
  | advance close more ih =>
    apply List.Sublist.trans (List.Sublist.cons_cons _ ih)
    exact sublist_append_right _ _

theorem Covers.last : (p :: kept).getLast? = some r := by
  induction covers with
  | stay => rfl
  | advance => rwa [getLast?_cons_cons]

theorem Covers.suffix : r :: left <:+ p :: rest := by
  induction covers with
  | stay => exact suffix_refl _
  | @advance p q r mids rest kept left close more ih =>
    apply ih.trans
    rw [← cons_append]
    exact suffix_append (p :: mids) (q :: rest)

theorem Covers.append_right (more : List S) :
    Covers Within p (rest ++ more) kept r (left ++ more) := by
  induction covers with
  | stay p left => exact .stay p (left ++ more)
  | advance close _ ih =>
    rw [append_assoc, cons_append]
    exact .advance close ih

end

theorem Covers.trans (covers : Covers Within p rest kept q left) {kept' left' : List S}
    (more : Covers Within q left kept' r left') : Covers Within p rest (kept ++ kept') r left' := by
  induction covers with
  | stay => exact more
  | advance close _ ih => exact .advance close (ih more)

theorem Covers.map {T : Type*} {Within' : T → T → T → Prop} (f : S → T)
    (carried : ∀ a b s, a ∈ p :: rest → b ∈ rest → s ∈ rest → Within a b s →
      Within' (f a) (f b) (f s)) (covers : Covers Within p rest kept r left) :
    Covers Within' (f p) (rest.map f) (kept.map f) (f r) (left.map f) := by
  induction covers with
  | stay p left => exact .stay (f p) (left.map f)
  | @advance p q r mids rest kept left close more ih =>
    rw [map_append, map_cons, map_cons]
    apply Covers.advance
    · intro t mem
      obtain ⟨s, inside, rfl⟩ := mem_map.mp mem
      apply carried p q s (by simp) (by simp) (by simp [inside])
      exact close s inside
    · apply ih
      intro a b s aIn bIn sIn
      apply carried a b s
      · exact mem_cons_of_mem _ (mem_append_right _ aIn)
      · exact mem_append_right _ (mem_cons_of_mem _ bIn)
      · exact mem_append_right _ (mem_cons_of_mem _ sIn)

inductive Thinned (Dropped : S → Prop) : List S → List S → Prop
  | nil : Thinned Dropped [] []
  | keep (v : S) {vertices thinned : List S} (more : Thinned Dropped vertices thinned) :
      Thinned Dropped (v :: vertices) (v :: thinned)
  | drop {v : S} (dropped : Dropped v) {vertices thinned : List S}
      (more : Thinned Dropped vertices thinned) : Thinned Dropped (v :: vertices) thinned

section Thinned

variable {Dropped : S → Prop} {vertices thinned : List S}

theorem Thinned.refl (vertices : List S) : Thinned Dropped vertices vertices := by
  induction vertices with
  | nil => exact .nil
  | cons v vertices ih => exact .keep v ih

theorem Thinned.append (first : Thinned Dropped vertices thinned) {vertices' thinned' : List S}
    (second : Thinned Dropped vertices' thinned') :
    Thinned Dropped (vertices ++ vertices') (thinned ++ thinned') := by
  induction first with
  | nil => exact second
  | keep v more ih => exact .keep v ih
  | drop dropped more ih => exact .drop dropped ih

theorem Thinned.map {T : Type*} {Dropped' : T → Prop} (f : S → T)
    (carried : ∀ v, Dropped v → Dropped' (f v)) (thin : Thinned Dropped vertices thinned) :
    Thinned Dropped' (vertices.map f) (thinned.map f) := by
  induction thin with
  | nil => exact .nil
  | keep v more ih => exact .keep (f v) ih
  | drop dropped more ih => exact .drop (carried _ dropped) ih

theorem Thinned.mono {Dropped' : S → Prop} (weaker : ∀ v, Dropped v → Dropped' v)
    (thin : Thinned Dropped vertices thinned) : Thinned Dropped' vertices thinned := by
  have mapped := thin.map id weaker
  rwa [List.map_id, List.map_id] at mapped

theorem Covers.thin {K : Type*} [LinearOrder K] {time : S → K}
    (covers : Covers Within p rest kept r left) (thin : Thinned Dropped kept thinned)
    (increasing : (p :: rest).Pairwise (time · < time ·))
    (chords : ∀ e, Dropped e → ∀ a ∈ p :: rest, ∀ b ∈ p :: rest, ∀ s ∈ p :: rest,
      time a < time e → time e < time b → time a < time s → time s < time b → Within a b s) :
    ∃ r' left', Covers Within p rest thinned r' left' := by
  induction covers generalizing thinned with
  | stay p left =>
    cases thin
    exact ⟨p, left, .stay p left⟩
  | @advance p q r mids rest kept left close more ih =>
    have tail := (pairwise_append.mp (of_cons increasing)).2.1
    have inside : ∀ s ∈ q :: rest, s ∈ p :: (mids ++ q :: rest) :=
      fun s mem => mem_cons_of_mem p (mem_append_right mids mem)
    have later : ∀ e, Dropped e → ∀ a ∈ q :: rest, ∀ b ∈ q :: rest, ∀ s ∈ q :: rest,
        time a < time e → time e < time b → time a < time s → time s < time b → Within a b s :=
      fun e dropped a aIn b bIn s sIn =>
        chords e dropped a (inside a aIn) b (inside b bIn) s (inside s sIn)
    cases thin with
    | keep _ thin =>
      obtain ⟨r', left', covers⟩ := ih thin tail later
      exact ⟨r', left', .advance close covers⟩
    | drop dropped thin =>
      obtain ⟨r', left', covers⟩ := ih thin tail later
      cases covers with
      | stay => exact ⟨p, _, .stay p _⟩
      | @advance _ next _ mids' rest' thinned' _ close' more' =>
        -- the chord from `p` to the next vertex goes over `q`
        refine ⟨r', left', ?_⟩
        have joined : mids ++ q :: (mids' ++ next :: rest') =
            (mids ++ q :: mids') ++ next :: rest' := by
          rw [append_assoc, cons_append]
        rw [joined] at increasing chords ⊢
        apply Covers.advance _ more'
        intro s mem
        have start : ∀ s ∈ (mids ++ q :: mids') ++ next :: rest', time p < time s :=
          fun s mem => rel_of_pairwise_cons increasing mem
        have order := (pairwise_append.mp (of_cons increasing)).2.2
        apply chords q dropped p mem_cons_self next (by simp) s
          (mem_cons_of_mem p (mem_append_left _ mem))
        · exact start q (by simp)
        · exact order q (by simp) next (by simp)
        · exact start s (mem_append_left _ mem)
        · exact order s mem next (by simp)

end Thinned

/-- Samples that are followed are near the polyline, up to its last vertex. -/
theorem Covers.near {K ι : Type*} [Field K] [LinearOrder K] (time : S → K) (point : ι → S → Point K)
    (Near : S → (ι → K) → Prop) (timed : ∀ i s, (point i s).time = time s)
    (exact_near : ∀ s, Near s fun i => (point i s).value)
    (covers : Covers (fun a b s => Near s fun i => lineAt (point i a) (point i b) (time s))
      p rest kept r left)
    (increasing : (p :: rest).Pairwise (time · < time ·)) {s : S} (mem : s ∈ p :: rest)
    (before : time s ≤ time r) : Near s fun i => valueAt ((p :: kept).map (point i)) (time s) := by
  induction covers with
  | stay =>
    obtain rfl | later := mem_cons.mp mem
    · exact exact_near s
    · exact absurd before (not_le.mpr (rel_of_pairwise_cons increasing later))
  | @advance p q r mids rest kept left close more ih =>
    have tail := (pairwise_append.mp (of_cons increasing)).2.1
    have first : time p < time q := rel_of_pairwise_cons increasing (by simp)
    have step : ∀ i, valueAt ((p :: q :: kept).map (point i)) (time s) =
        if time s ≤ time q then lineAt (point i p) (point i q) (time s)
        else valueAt ((q :: kept).map (point i)) (time s) := by
      intro i
      rw [map_cons, map_cons, valueAt, timed]
    simp only [step]
    by_cases early : time s ≤ time q
    · simp only [if_pos early]
      simp only [mem_cons, mem_append] at mem
      obtain rfl | inside | rfl | later := mem
      · have same : ∀ i, lineAt (point i s) (point i q) (time s) = (point i s).value := by
          intro i
          rw [← timed i s, lineAt_left]
        simp only [same]
        exact exact_near s
      · exact close s inside
      · have same : ∀ i, lineAt (point i p) (point i s) (time s) = (point i s).value := by
          intro i
          rw [← timed i s, lineAt_right]
          rw [timed, timed]
          exact first.ne
        simp only [same]
        exact exact_near s
      · exact absurd early (not_le.mpr (rel_of_pairwise_cons tail later))
    · simp only [if_neg early]
      apply ih tail _ before
      simp only [mem_cons, mem_append] at mem
      obtain rfl | inside | rfl | later := mem
      · exact absurd first.le early
      · have precedes := (pairwise_append.mp (of_cons increasing)).2.2
        exact absurd (precedes s inside q (by simp)).le early
      · exact mem_cons_self
      · exact mem_cons_of_mem _ later

end Covers


section Reduction

variable {K : Type*} [LinearOrder K] {measured : Nat → Nat → Nat → K} {bound : K}

def larger (f : Nat → K) (best : K × Nat) (i : Nat) : K × Nat :=
  if best.1 < f i then (f i, i) else best

theorem foldl_larger (f : Nat → K) (is : List Nat) (best : K × Nat) :
    best.1 ≤ (is.foldl (larger f) best).1 ∧ (∀ i ∈ is, f i ≤ (is.foldl (larger f) best).1) ∧
      (is.foldl (larger f) best = best ∨ ∃ i ∈ is, is.foldl (larger f) best = (f i, i)) := by
  induction is generalizing best with
  | nil => exact ⟨le_rfl, nofun, .inl rfl⟩
  | cons i is ih =>
    obtain ⟨above, all, attained⟩ := ih (larger f best i)
    have grows : best.1 ≤ (larger f best i).1 ∧ f i ≤ (larger f best i).1 := by
      rw [larger]
      split_ifs with more
      · exact ⟨more.le, le_rfl⟩
      · exact ⟨le_rfl, not_lt.mp more⟩
    rw [foldl_cons]
    refine ⟨grows.1.trans above, ?_, ?_⟩
    · exact forall_mem_cons.mpr ⟨grows.2.trans above, all⟩
    · obtain same | ⟨k, member, value⟩ := attained
      · rw [same, larger]
        split_ifs
        · exact .inr ⟨i, mem_cons_self, rfl⟩
        · exact .inl rfl
      · exact .inr ⟨k, mem_cons_of_mem _ member, value⟩

structure Reduced (measured : Nat → Nat → Nat → K) (bound : K) (first last : Nat)
    (kept : List Nat) : Prop where
  inside : ∀ i ∈ kept, first < i ∧ i < last
  nodup : kept.Nodup
  close : ∀ a ∈ first :: last :: kept, ∀ b ∈ first :: last :: kept, a < b →
    (∀ c ∈ kept, c ≤ a ∨ b ≤ c) → ∀ i, a < i → i < b → measured a b i ≤ bound

variable {last : Nat} {kept : List Nat}

theorem Reduced.nil {first : Nat} (ordered : first ≤ last)
    (close : ∀ i, first < i → i < last → measured first last i ≤ bound) :
    Reduced measured bound first last [] where
  inside := nofun
  nodup := nodup_nil
  close := by
    intro a aIn b bIn less _ i low high
    simp only [mem_cons, not_mem_nil, or_false] at aIn bIn
    have firstEq : a = first := by omega
    have lastEq : b = last := by omega
    subst firstEq lastEq
    exact close i low high

section Join

variable {first mid last x : Nat} {left right : List Nat}
  (before : Reduced measured bound first mid left) (after : Reduced measured bound mid last right)
  (low : first < mid) (high : mid < last)

include before low in
theorem Reduced.mem_after (mem : x ∈ first :: last :: (left ++ right ++ [mid]))
    (side : mid ≤ x) : x ∈ mid :: last :: right := by
  simp only [mem_cons, mem_append, not_mem_nil, or_false] at mem ⊢
  obtain rfl | same | (inside | inside) | same := mem
  · omega
  · exact .inr (.inl same)
  · have := before.inside x inside
    omega
  · exact .inr (.inr inside)
  · exact .inl same

include after high in
theorem Reduced.mem_before (mem : x ∈ first :: last :: (left ++ right ++ [mid]))
    (side : x ≤ mid) : x ∈ first :: mid :: left := by
  simp only [mem_cons, mem_append, not_mem_nil, or_false] at mem ⊢
  obtain same | rfl | (inside | inside) | same := mem
  · exact .inl same
  · omega
  · exact .inr (.inr inside)
  · have := after.inside x inside
    omega
  · exact .inr (.inl same)

include before after low high in
theorem Reduced.join : Reduced measured bound first last (left ++ right ++ [mid]) where
  inside := by
    intro i mem
    simp only [mem_append, mem_singleton] at mem
    obtain (mem | mem) | rfl := mem
    · have := before.inside i mem
      omega
    · have := after.inside i mem
      omega
    · exact ⟨low, high⟩
  nodup := by
    rw [append_assoc]
    apply before.nodup.append
    · apply after.nodup.append (nodup_singleton mid)
      intro i mem other
      have := after.inside i mem
      rw [mem_singleton] at other
      omega
    · intro i mem other
      have := before.inside i mem
      simp only [mem_append, mem_singleton] at other
      obtain other | rfl := other
      · have := after.inside i other
        omega
      · omega
  close := by
    intro a aIn b bIn less gap
    -- `mid` is kept, so the two are on one side of it
    obtain side | side := gap mid (by simp)
    · apply after.close a (before.mem_after low aIn side) b
        (before.mem_after low bIn (by omega)) less
      intro c mem
      exact gap c (by simp [mem])
    · apply before.close a (after.mem_before high aIn (by omega)) b
        (after.mem_before high bIn side) less
      intro c mem
      exact gap c (by simp [mem])

end Join

section Search

variable [Zero K]

section

variable (measured bound)

def worst (first last : Nat) : K × Nat :=
  (range' first (last - first + 1)).foldl (larger (measured first last)) (0, first)

/-- The indices that have to be kept between two that are. -/
def reduce : Nat → Nat → Nat → List Nat
  | 0, _, _ => []
  | fuel + 1, first, last =>
    if last - first ≤ 1 then []
    else if bound < (worst measured first last).1 then
      reduce fuel first (worst measured first last).2 ++
        reduce fuel (worst measured first last).2 last ++ [(worst measured first last).2]
    else []

/-- The search given up where the calls are nested deeper than a number. -/
def reduceWithin : Nat → Nat → Nat → Option (List Nat)
  | 0, _, _ => none
  | depth + 1, first, last =>
    if last - first ≤ 1 then some []
    else if bound < (worst measured first last).1 then
      (reduceWithin depth first (worst measured first last).2).bind fun left =>
        (reduceWithin depth (worst measured first last).2 last).map fun right =>
          left ++ right ++ [(worst measured first last).2]
    else some []

end

variable {first last : Nat}

theorem le_worst {i : Nat} (low : first ≤ i) (high : i ≤ last) :
    measured first last i ≤ (worst measured first last).1 := by
  apply (foldl_larger (measured first last) _ (0, first)).2.1 i
  rw [mem_range'_1]
  omega

theorem worst_inside (ends : measured first last first ≤ 0 ∧ measured first last last ≤ 0)
    (far : 0 < (worst measured first last).1) (ordered : first < last) :
    first < (worst measured first last).2 ∧ (worst measured first last).2 < last := by
  have attained := (foldl_larger (measured first last)
    (range' first (last - first + 1)) (0, first)).2.2
  rw [← worst] at attained
  obtain same | ⟨i, mem, value⟩ := attained
  · rw [same] at far
    exact absurd far (lt_irrefl 0)
  · rw [mem_range'_1] at mem
    rw [value] at far ⊢
    have notFirst : i ≠ first := by
      rintro rfl
      exact absurd ends.1 (not_le.mpr far)
    have notLast : i ≠ last := by
      rintro rfl
      exact absurd ends.2 (not_le.mpr far)
    dsimp only
    omega

theorem reduce_reduced (nonneg : 0 ≤ bound) {top : Nat}
    (ends : ∀ a b, a < b → b ≤ top → measured a b a ≤ 0 ∧ measured a b b ≤ 0)
    (fuel first last : Nat) (ordered : first ≤ last) (within : last ≤ top)
    (enough : last - first ≤ fuel) : reduceWithin measured bound (fuel + 1) first last =
        some (reduce measured bound fuel first last) ∧
      Reduced measured bound first last (reduce measured bound fuel first last) := by
  induction fuel generalizing first last with
  | zero =>
    rw [reduceWithin, if_pos (by omega), reduce]
    refine ⟨rfl, .nil ordered ?_⟩
    intro i low high
    omega
  | succ fuel ih =>
    rw [reduceWithin, reduce]
    split_ifs with short far
    · refine ⟨rfl, .nil ordered ?_⟩
      intro i low high
      omega
    · have less : first < last := by omega
      have inside := worst_inside (ends first last less within) (nonneg.trans_lt far) less
      have left := ih first _ inside.1.le (inside.2.le.trans within) (by omega)
      have right := ih _ last inside.2.le within (by omega)
      rw [left.1, right.1]
      exact ⟨rfl, left.2.join right.2 inside.1 inside.2⟩
    · refine ⟨rfl, .nil ordered ?_⟩
      intro i low high
      exact (le_worst low.le high.le).trans (not_lt.mp far)

/-- A negative bound splits at the first sample forever. -/
theorem reduceWithin_stuck (negative : bound < 0) (long : 1 < last - first)
    (straight : worst measured first last = (0, first)) (depth : Nat) :
    reduceWithin measured bound depth first last = none := by
  induction depth with
  | zero => rfl
  | succ depth ih =>
    rw [reduceWithin, if_neg (by omega), straight, if_pos negative]
    simp only [ih, map_none, bind_fun_none]

theorem reduce_ne_nil {fuel i : Nat} (low : first < i) (high : i < last)
    (far : bound < measured first last i) : reduce measured bound (fuel + 1) first last ≠ [] := by
  rw [reduce, if_neg (by omega), if_pos (far.trans_le (le_worst low.le high.le))]
  simp

/-! A scale of the errors that keeps their order finds the same indices. -/

section Scale

variable {L : Type*} [LinearOrder L] {scale : K → L}
  (order : ∀ x y, 0 ≤ x → 0 ≤ y → (scale x < scale y ↔ x < y))

include order in
theorem foldl_larger_scale {f : Nat → K} (nonneg : ∀ i, 0 ≤ f i) (is : List Nat) (best : K × Nat)
    (positive : 0 ≤ best.1) : is.foldl (larger fun i => scale (f i)) (scale best.1, best.2) =
      (scale (is.foldl (larger f) best).1, (is.foldl (larger f) best).2) := by
  induction is generalizing best with
  | nil => rfl
  | cons i is ih =>
    rw [foldl_cons, foldl_cons]
    have step : larger (fun i => scale (f i)) (scale best.1, best.2) i =
        (scale (larger f best i).1, (larger f best i).2) := by
      simp only [larger, order best.1 (f i) positive (nonneg i)]
      split_ifs <;> rfl
    rw [step]
    apply ih
    rw [larger]
    split_ifs
    · exact nonneg i
    · exact positive

variable [Zero L] (zero : scale 0 = 0) (nonneg : ∀ a b i, 0 ≤ measured a b i)

include order zero nonneg in
theorem worst_scale (first last : Nat) : worst (fun a b i => scale (measured a b i)) first last =
      (scale (worst measured first last).1, (worst measured first last).2) := by
  have folded := foldl_larger_scale order (nonneg first last)
    (range' first (last - first + 1)) (0, first) le_rfl
  rw [zero] at folded
  exact folded

include order zero nonneg in
theorem reduce_scale (positive : 0 ≤ bound) (fuel first last : Nat) :
    reduce (fun a b i => scale (measured a b i)) (scale bound) fuel first last =
      reduce measured bound fuel first last := by
  induction fuel generalizing first last with
  | zero => rfl
  | succ fuel ih =>
    have worstNonneg : 0 ≤ (worst measured first last).1 :=
      (foldl_larger (measured first last) _ (0, first)).1
    rw [reduce, reduce, worst_scale order zero nonneg]
    simp only [order bound _ positive worstNonneg, ih]

end Scale

end Search

/-! ### Indices that go back in time -/

theorem reverse_range_split {k a : Nat} (less : k < a) :
    (range a).reverse = (range' (k + 1) (a - (k + 1))).reverse ++ k :: (range k).reverse := by
  have parts : range a = range (k + 1) ++ range' (k + 1) (a - (k + 1)) := by
    have total : a = k + 1 + (a - (k + 1)) := by omega
    rw [range_eq_range', range_eq_range']
    nth_rewrite 1 [total]
    rw [← range'_append_1, Nat.zero_add]
  rw [parts, reverse_append, range_succ, reverse_append, reverse_singleton, singleton_append]

/-- Descending indices with the samples close to their lines follow the samples. -/
theorem covers_of_close {Within : Nat → Nat → Nat → Prop} (ks : List Nat) (a : Nat)
    (descending : (a :: ks).Pairwise (· > ·))
    (close : ∀ x ∈ a :: ks, ∀ y ∈ a :: ks, y < x → (∀ c ∈ a :: ks, c ≤ y ∨ x ≤ c) →
      ∀ i, y < i → i < x → Within x y i) : Covers Within a (range a).reverse ks (ks.getLast?.getD a)
      (range (ks.getLast?.getD a)).reverse := by
  induction ks generalizing a with
  | nil => exact .stay a _
  | cons k ks ih =>
    have less : k < a := rel_of_pairwise_cons descending (by simp)
    have tail := of_cons descending
    have below : ∀ c ∈ k :: ks, c ≤ k := by
      intro c member
      obtain rfl | member := mem_cons.mp member
      · exact le_rfl
      · exact (rel_of_pairwise_cons tail member).le
    rw [reverse_range_split less]
    have last : (k :: ks).getLast?.getD a = ks.getLast?.getD k := by
      rw [getLast?_cons, getD_some]
    rw [last]
    apply Covers.advance
    · intro i member
      rw [mem_reverse, mem_range'_1] at member
      apply close a (by simp) k (by simp) less
      · intro c member
        obtain rfl | member := mem_cons.mp member
        · exact .inr le_rfl
        · exact .inl (below c member)
      · omega
      · omega
    · apply ih k tail
      intro x xIn y yIn order gap
      apply close x (mem_cons_of_mem _ xIn) y (mem_cons_of_mem _ yIn) order
      intro c member
      obtain rfl | member := mem_cons.mp member
      · have := below x xIn
        omega
      · exact gap c member

def chronological (kept : List Nat) : List Nat := kept.insertionSort (· ≥ ·)

@[simp] theorem mem_chronological {i : Nat} : i ∈ chronological kept ↔ i ∈ kept :=
  mem_insertionSort (· ≥ ·)

theorem chronological_pairwise (nodup : kept.Nodup) : (chronological kept).Pairwise (· > ·) := by
  have sorted : (chronological kept).Pairwise (· ≥ ·) := pairwise_insertionSort _ kept
  have distinct : (chronological kept).Nodup := (perm_insertionSort _ kept).nodup_iff.mpr nodup
  apply (sorted.and distinct).imp
  intro a b both
  omega

theorem Reduced.covers (reduced : Reduced measured bound 0 last kept) :
    Covers (fun a b i => measured b a i ≤ bound) last (range last).reverse (chronological kept)
      ((chronological kept).getLast?.getD last)
      (range ((chronological kept).getLast?.getD last)).reverse := by
  apply covers_of_close
  · rw [pairwise_cons]
    refine ⟨?_, chronological_pairwise reduced.nodup⟩
    intro i mem
    exact (reduced.inside i (mem_chronological.mp mem)).2
  · intro x xIn y yIn less gap i low high
    simp only [mem_cons, mem_chronological] at xIn yIn gap
    apply reduced.close y _ x _ less _ i low high
    · rcases yIn with rfl | yIn <;> simp [*]
    · rcases xIn with rfl | xIn <;> simp [*]
    · intro c mem
      exact gap c (.inr mem)

theorem Reduced.covers_nil (reduced : Reduced measured bound 0 last []) (positive : 0 < last) :
    Covers (fun a b i => measured b a i ≤ bound) last (range last).reverse [0] 0 [] := by
  apply covers_of_close [0] last
  · simpa using positive
  · intro x xIn y yIn less gap i low high
    apply reduced.close y _ x _ less nofun i low high
    · simp only [mem_cons, not_mem_nil, or_false] at yIn ⊢
      tauto
    · simp only [mem_cons, not_mem_nil, or_false] at xIn ⊢
      tauto

end Reduction

end Vissr.Polyline
