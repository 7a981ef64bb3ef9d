import Mathlib

/-! Reference counts: a list of keys with the number of times each is in use. -/

namespace Vissr

open List Nat

structure Counter (α : Type) where
  key : α
  count : Nat
  deriving DecidableEq

namespace Counter

variable {α : Type} {cs : List (Counter α)} {uses : List α} {a b : α}

def keys (cs : List (Counter α)) : List α := cs.map Counter.key

theorem mem_keys {c : Counter α} (mem : c ∈ cs) : c.key ∈ keys cs := mem_map_of_mem mem

section Operations

variable [DecidableEq α]

def increment (a : α) (c : Counter α) : Counter α :=
  if c.key = a then { c with count := c.count + 1 } else c

def retain (a : α) (cs : List (Counter α)) : List (Counter α) :=
  if a ∈ keys cs then cs.map (increment a) else cs ++ [⟨a, 1⟩]

def release (a : α) : List (Counter α) → List (Counter α)
  | [] => []
  | c :: cs =>
    if c.key = a then if 1 < c.count then { c with count := c.count - 1 } :: cs else cs
    else c :: release a cs

def lastUse (a : α) (cs : List (Counter α)) : Bool :=
  (cs.find? fun c => c.key = a).any fun c => c.count ≤ 1

@[simp] theorem increment_key (c : Counter α) : (increment a c).key = c.key := by
  simp only [increment]
  split_ifs <;> rfl

theorem keys_increment : keys (cs.map (increment a)) = keys cs := by
  simp [keys, Function.comp_def]

theorem increment_count (c : Counter α) :
    (increment a c).count = c.count + if a = c.key then 1 else 0 := by
  simp only [increment, eq_comm]
  split_ifs <;> rfl

theorem keys_retain : keys (retain a cs) = if a ∈ keys cs then keys cs else keys cs ++ [a] := by
  simp only [retain]
  split_ifs
  · exact keys_increment
  · simp [keys]

theorem mem_keys_retain : b ∈ keys (retain a cs) ↔ b = a ∨ b ∈ keys cs := by
  rw [keys_retain]
  split_ifs with listed
  · refine (or_iff_right_of_imp ?_).symm
    rintro rfl
    exact listed
  · rw [mem_append, mem_singleton, or_comm]

theorem nodup_keys_retain (distinct : (keys cs).Nodup) : (keys (retain a cs)).Nodup := by
  rw [keys_retain]
  split_ifs with listed
  · exact distinct
  · rw [← concat_eq_append]
    exact distinct.concat listed

theorem mem_keys_of_lastUse (last : lastUse a cs = true) : a ∈ keys cs := by
  cases search : cs.find? fun c => c.key = a with
  | none =>
    rw [lastUse, search] at last
    cases last
  | some c =>
    have same : c.key = a := by simpa using find?_some search
    rw [← same]
    exact mem_keys (mem_of_find?_eq_some search)

theorem keys_release_sublist : (keys (release a cs)).Sublist (keys cs) := by
  induction cs with
  | nil => exact .slnil
  | cons c cs ih =>
    simp only [release]
    split_ifs
    · exact .refl _
    · exact sublist_cons_self _ _
    · exact ih.cons_cons c.key

def decrement (a : α) (c : Counter α) : Option (Counter α) :=
  if c.key = a then if 1 < c.count then some { c with count := c.count - 1 } else none else some c

theorem release_eq (distinct : (keys cs).Nodup) : release a cs = cs.filterMap (decrement a) := by
  induction cs with
  | nil => rfl
  | cons c cs ih =>
    obtain ⟨alone, distinct⟩ := nodup_cons.mp distinct
    rw [release, filterMap_cons, decrement]
    by_cases here : c.key = a
    · have others : cs.filterMap (decrement a) = cs.filterMap some := by
        refine filterMap_congr fun d mem => if_neg fun same => alone ?_
        rw [here, ← same]
        exact mem_keys mem
      rw [if_pos here, if_pos here, others, filterMap_some]
      split_ifs <;> rfl
    · rw [if_neg here, if_neg here, ih distinct]

theorem mem_release (distinct : (keys cs).Nodup) {c : Counter α} :
    c ∈ release a cs ↔ (c ∈ cs ∧ c.key ≠ a) ∨
      ∃ d ∈ cs, d.key = a ∧ 1 < d.count ∧ c = { d with count := d.count - 1 } := by
  simp only [release_eq distinct, mem_filterMap, decrement]
  constructor
  · rintro ⟨d, mem, same⟩
    split_ifs at same with here more
    · cases same
      exact .inr ⟨d, mem, here, more, rfl⟩
    · cases same
      exact .inl ⟨mem, here⟩
  · rintro (⟨mem, other⟩ | ⟨d, mem, here, more, rfl⟩)
    · exact ⟨c, mem, if_neg other⟩
    · exact ⟨d, mem, by rw [if_pos here, if_pos more]⟩

theorem lastUse_eq (distinct : (keys cs).Nodup) {c : Counter α} (mem : c ∈ cs) :
    lastUse c.key cs = decide (c.count ≤ 1) := by
  cases search : cs.find? fun d => d.key = c.key with
  | none => exact absurd (decide_eq_true rfl) (find?_eq_none.mp search c mem)
  | some d =>
    have same : d = c := inj_on_of_nodup_map distinct (mem_of_find?_eq_some search) mem
      (by simpa using find?_some search)
    rw [lastUse, search, same, Option.any_some]

theorem mem_keys_release (distinct : (keys cs).Nodup) :
    b ∈ keys (release a cs) ↔ b ∈ keys cs ∧ ¬ (b = a ∧ lastUse a cs = true) := by
  constructor
  · intro listed
    obtain ⟨c, mem, rfl⟩ := mem_map.mp listed
    obtain ⟨there, other⟩ | ⟨d, there, rfl, many, rfl⟩ := (mem_release distinct).mp mem
    · exact ⟨mem_keys there, fun gone => other gone.1⟩
    · have keyed := mem_keys there
      refine ⟨keyed, fun gone => ?_⟩
      rw [lastUse_eq distinct there, decide_eq_true_eq] at gone
      omega
  · rintro ⟨listed, kept⟩
    obtain ⟨c, there, rfl⟩ := mem_map.mp listed
    by_cases same : c.key = a
    · subst same
      rw [lastUse_eq distinct there, decide_eq_true_eq] at kept
      have many : 1 < c.count := Nat.lt_of_not_le fun few => kept ⟨rfl, few⟩
      have keyed := mem_keys ((mem_release distinct).mpr (.inr ⟨c, there, rfl, many, rfl⟩))
      exact keyed
    · exact mem_keys ((mem_release distinct).mpr (.inl ⟨there, same⟩))

end Operations

section Counts

variable [BEq α]

/-- The counts are those of the uses. -/
structure Represents (cs : List (Counter α)) (uses : List α) : Prop where
  distinct : (keys cs).Nodup
  positive : ∀ c ∈ cs, 1 ≤ c.count
  counted : ∀ c ∈ cs, c.count = uses.count c.key
  listed : ∀ a ∈ uses, a ∈ keys cs

theorem Represents.empty : Represents ([] : List (Counter α)) [] := ⟨nodup_nil, nofun, nofun, nofun⟩

theorem Represents.perm {uses' : List α} (represents : Represents cs uses)
    (perm : uses.Perm uses') : Represents cs uses' where
  distinct := represents.distinct
  positive := represents.positive
  counted := by
    intro c mem
    rw [← perm.count_eq]
    exact represents.counted c mem
  listed := by
    intro a mem
    exact represents.listed a (perm.mem_iff.mpr mem)

variable [LawfulBEq α]

theorem Represents.of_keys (distinct : (keys cs).Nodup)
    (counted : ∀ c ∈ cs, c.count = uses.count c.key) (listed : ∀ a, a ∈ keys cs ↔ a ∈ uses) :
    Represents cs uses where
  distinct := distinct
  positive := by
    intro c mem
    rw [counted c mem]
    exact count_pos_iff.mpr ((listed c.key).mp (mem_keys mem))
  counted := counted
  listed := fun a => (listed a).mpr

theorem Represents.mem_keys_iff (represents : Represents cs uses) : a ∈ keys cs ↔ a ∈ uses := by
  constructor
  · intro listed
    obtain ⟨c, mem, rfl⟩ := mem_map.mp listed
    have used := represents.positive c mem
    rw [represents.counted c mem] at used
    exact count_pos_iff.mp used
  · exact represents.listed a

variable [DecidableEq α]

theorem Represents.retain (represents : Represents cs uses) (a : α) :
    Represents (retain a cs) (a :: uses) := by
  refine .of_keys (nodup_keys_retain represents.distinct) ?_ ?_
  · intro c mem
    rw [Counter.retain] at mem
    split_ifs at mem with known
    · obtain ⟨before, there, rfl⟩ := mem_map.mp mem
      rw [increment_count, increment_key, count_cons, represents.counted before there]
      simp
    · obtain there | last := mem_append.mp mem
      · have other : a ≠ c.key := by
          rintro rfl
          exact known (mem_keys there)
        rw [count_cons_of_ne other]
        exact represents.counted c there
      · have unused : a ∉ uses := fun mem => known (represents.listed a mem)
        rw [mem_singleton.mp last, count_cons_self, count_eq_zero.mpr unused]
  · intro b
    rw [mem_keys_retain, represents.mem_keys_iff, mem_cons]

theorem Represents.lastUse_iff (represents : Represents cs (a :: uses)) :
    lastUse a cs = true ↔ a ∉ uses := by
  obtain ⟨c, mem, rfl⟩ := mem_map.mp (represents.listed a mem_cons_self)
  have counted := represents.counted c mem
  rw [count_cons_self] at counted
  rw [lastUse_eq represents.distinct mem, decide_eq_true_eq, ← count_eq_zero]
  omega

theorem Represents.release (represents : Represents cs (a :: uses)) :
    Represents (release a cs) uses := by
  have distinct := represents.distinct
  refine .of_keys (keys_release_sublist.nodup distinct) ?_ ?_
  · intro c mem
    obtain ⟨there, other⟩ | ⟨d, there, rfl, -, rfl⟩ := (mem_release distinct).mp mem
    · have counted := represents.counted c there
      rwa [count_cons_of_ne other.symm] at counted
    · have counted := represents.counted d there
      rw [count_cons_self] at counted
      exact Nat.sub_eq_of_eq_add counted
  · intro b
    rw [mem_keys_release distinct, represents.mem_keys_iff, represents.lastUse_iff, mem_cons]
    constructor
    · rintro ⟨rfl | used, kept⟩
      · exact not_not.mp fun unused => kept ⟨rfl, unused⟩
      · exact used
    · intro used
      refine ⟨.inr used, ?_⟩
      rintro ⟨rfl, unused⟩
      exact unused used

end Counts

end Counter

end Vissr
