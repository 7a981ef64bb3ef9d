import Vissr.Json.Marshal
import Vissr.Json.Paste
import Vissr.ServiceMgr.Feeder

/-! The messages about subscriptions as texts. -/

namespace Vissr.ServiceMgr

open Json List Nat

variable (first : Str) (rest : List Str)

/-- Texts in an array up to its closing bracket. -/
def openArray : Str := '[' :: pasted first ++ pastedMore rest

theorem pastedArray_eq : pastedArray (first :: rest) = openArray first rest ++ [']'] := by
  simp [pastedArray, openArray]

/-- After every text come three characters too many. -/
theorem pasted_flatMap :
    "[\"".toList ++ (first :: rest).flatMap (fun path => path ++ "\", \"".toList) =
      openArray first rest ++ ", \"".toList := by
  induction rest generalizing first with
  | nil => simp [openArray, pasted, pastedMore]
  | cons second rest ih =>
    have shorter := ih second
    simp only [openArray, pasted, pastedMore, flatMap_cons] at shorter ⊢
    simp only [String.reduceToList, cons_append, nil_append, cons.injEq, true_and,
      append_assoc] at shorter ⊢
    rw [shorter]

theorem openArray_ends : ∃ before, openArray first rest = before ++ ['"'] := by
  cases rest using reverseRecOn with
  | nil =>
    refine ⟨'[' :: '"' :: first, ?_⟩
    simp [openArray, pasted, pastedMore]
  | append_singleton rest last =>
    refine ⟨'[' :: pasted first ++ (pastedMore rest ++ ',' :: ' ' :: '"' :: last), ?_⟩
    simp [openArray, pasted, pastedMore]

theorem pathArray_eq (paths : List Str) (nonempty : paths ≠ []) :
    pathArray paths = pastedArray paths := by
  cases paths with
  | nil => exact absurd rfl nonempty
  | cons first rest =>
    obtain ⟨before, ends⟩ := openArray_ends first rest
    simp only [pathArray, pasted_flatMap, pastedArray_eq, ends]
    simp

variable {action variant : Str} {paths : List Str}

def textMember (k s : Str) : Str × Raw × Str := (k, .str (literal s), ' ' :: pasted s)

structure Readable (m : Str × Raw × Str) : Prop where
  key : PlainText m.1
  reads : Reads m.2.1 m.2.2
  nesting : m.2.1.nesting ≤ 1
  inRange : m.2.1.inRange = true

variable {k s : Str}

theorem readable_text (key : PlainText k) (plain : PlainText s) : Readable (textMember k s) :=
  ⟨key, (reads_pasted s plain).space, zero_le 1, rfl⟩

theorem readable_array {text : Str} (key : PlainText k) (reads : Reads (literals paths) text) :
    Readable (k, literals paths, text) :=
  ⟨key, reads, le_of_eq (literals_nesting paths), literals_inRange paths⟩

theorem unmarshalMap_readable {v : Raw} {ms : List (Str × Raw × Str)}
    (readable : ∀ m ∈ (k, v, s) :: ms, Readable m) : unmarshalMap (spacedObject k s ms) =
      some (mapOf (((k, v, s) :: ms).map fun m => (m.1, m.2.1.value))) := by
  have keys : ∀ m ∈ (k, v, s) :: ms, PlainText m.1 := fun m mem => (readable m mem).key
  have reads := reads_spacedObject k v s ms keys fun m mem => (readable m mem).reads
  have nesting := membersObject_nesting fun m mem => (readable m mem).nesting
  exact unmarshalMap_of_reads reads keys (le_trans nesting (by decide))
    fun m mem => (readable m mem).inRange

theorem value_text (plain : PlainText s) : (Raw.str (literal s)).value = .str s := by
  rw [Raw.value, unquote_literal s plain]

def notifyMembers (variant : Str) (paths : List Str) (subscriptionId : Int) :
    List (Str × Raw × Str) :=
  [textMember "variant" variant, ("path", literals paths, ' ' :: pastedArray paths),
    textMember "subscriptionId" (itoa subscriptionId)]

theorem createFeederNotifyMessage_eq (nonempty : paths ≠ []) (subId : Int) :
    createFeederNotifyMessage variant paths subId =
      spacedObject "action" (' ' :: pasted "subscribe")
        (notifyMembers variant paths subId) := by
  cases paths with
  | nil => exact absurd rfl nonempty
  | cons first rest =>
    have cut : (openArray first rest ++ ", \"".toList).take
        ((openArray first rest ++ ", \"".toList).length - 3) = openArray first rest := by simp
    simp only [createFeederNotifyMessage, if_neg nonempty, pasted_flatMap, cut]
    simp [spacedObject, spacedMembers, notifyMembers, textMember, pastedMember, pasted,
      pastedArray_eq]

theorem unmarshalMap_notify (nonempty : paths ≠ []) (plainVariant : PlainText variant)
    (plain : ∀ path ∈ paths, PlainText path) (subId : Int) :
    unmarshalMap (createFeederNotifyMessage variant paths subId) =
      some (mapOf [("action", .str "subscribe"), ("variant", .str variant),
        ("path", .arr (paths.map .str)), ("subscriptionId", .str (itoa subId))]) := by
  have readable : ∀ m ∈ textMember "action" "subscribe" ::
      notifyMembers variant paths subId, Readable m := by
    intro m mem
    simp only [notifyMembers, mem_cons, not_mem_nil, or_false] at mem
    obtain rfl | rfl | rfl | rfl := mem
    · exact readable_text (by decide) (by decide)
    · exact readable_text (by decide) plainVariant
    · exact readable_array (by decide) (reads_pastedArray paths plain).space
    · exact readable_text (by decide) (plainText_itoa subId)
  rw [createFeederNotifyMessage_eq nonempty]
  have decoded := unmarshalMap_readable readable
  simp only [notifyMembers, textMember, map_cons, map_nil, literals_value paths plain,
    value_text plainVariant, value_text (plainText_itoa subId)] at decoded
  exact decoded

end Vissr.ServiceMgr
