import Vissr.Core.NoScope

/-! The text of a subtree is JSON, and is read back as the nodes of the subtree. -/

namespace Vissr.Core

open Json Tree List Nat

/-- A default or a datatype may be missing. -/
def textFields (data : NodeData) : List (Str × Str) :=
  ("type".toList, nodeTypeName data.nodeType) ::
    ((if data.defaultValue = [] then [] else [("default".toList, data.defaultValue)]) ++
      ("description".toList, data.description) ::
        if data.datatype = [] then [] else [("datatype".toList, data.datatype)])

def nodeFields {β : Type} (text : Str → β) (data : NodeData) (children : Option β) :
    List (Str × β) :=
  ((textFields data).map fun f => (f.1, text f.2)) ++
    children.toList.map (Prod.mk "children".toList)

/-- A node with the nodes of so many levels below it. -/
def nodeObject {β : Type} (text : Str → β) (object : List (Str × β) → β) : Nat → Node → β
  | 0, node => object (nodeFields text node.data none)
  | levels + 1, node =>
    object (nodeFields text node.data (if node.child = [] then none
      else some (object (node.child.map fun child =>
        (child.name, nodeObject text object levels child)))))

/-- What a decoder keeps: of siblings with one name the last one. -/
def metadata : Nat → Node → Value := nodeObject .str fun ms => .obj (mapOf ms)

/-- No text needs an escape, and the default is not taken for JSON. -/
structure PlainData (data : NodeData) : Prop where
  name : PlainText data.name
  fields : ∀ f ∈ textFields data, PlainText f.2
  default : ∀ c ∈ data.defaultValue.head?, c ≠ '\x7b' ∧ c ≠ '['

/-! ### The pieces of the text -/

abbrev Piece := Raw × Str

def textPiece (s : Str) : Piece := (.str (literal s), pasted s)

def commas (ms : List (Str × Piece)) : Str := ms.flatMap fun m => pastedMember m.1 m.2.2 ++ [',']

def objectPiece (ms : List (Str × Piece)) : Piece :=
  (membersObject ms, '\x7b' :: (commas ms).dropLast ++ ['\x7d'])

def nodePiece : Nat → Node → Piece := nodeObject textPiece objectPiece

structure Sound (depth : Nat) (p : Piece) : Prop where
  reads : Reads p.1 p.2
  range : p.1.inRange = true
  nested : p.1.nesting ≤ depth

variable {depth : Nat} {data : NodeData} {ms : List (Str × Piece)}

theorem plain_keys : ∀ f ∈ textFields data, PlainText f.1 := by
  have keys : ∀ k ∈ ["type".toList, "default".toList, "description".toList, "datatype".toList],
      PlainText k := by
    decide
  intro f mem
  apply keys
  simp only [textFields, mem_cons, mem_append, mem_ite_nil_left, not_mem_nil, or_false] at mem ⊢
  rcases mem with rfl | ⟨-, rfl⟩ | rfl | ⟨-, rfl⟩ <;> simp

theorem commas_cons (m : Str × Piece) (ms : List (Str × Piece)) :
    commas (m :: ms) = pastedMember m.1 m.2.2 ++ joinedMembers [] ms ++ [','] := by
  induction ms generalizing m with
  | nil => simp [commas, joinedMembers]
  | cons next ms ih =>
    rw [commas, flatMap_cons, ← commas, ih]
    simp [joinedMembers]

theorem sound_object (some_ : ms ≠ []) (each : ∀ m ∈ ms, PlainText m.1 ∧ Sound depth m.2) :
    Sound (depth + 1) (objectPiece ms) := by
  refine ⟨?_, ?_, membersObject_nesting fun m mem => (each m mem).2.nested⟩
  · obtain ⟨⟨k, v, s⟩, rest, rfl⟩ := exists_cons_of_ne_nil some_
    have reads := @reads_joined [] (fun _ _ _ => rfl) k v s rest (fun m mem => (each m mem).1)
      fun m mem => (each m mem).2.reads
    rw [objectPiece, commas_cons, dropLast_concat]
    simpa using reads
  · exact inRangeMembers_map ms fun m mem => (each m mem).2.range

theorem sound_fields (plain : PlainData data) {children : Option Piece}
    (below : ∀ p ∈ children, Sound depth p) : ∀ m ∈ nodeFields textPiece data children,
      PlainText m.1 ∧ Sound depth m.2 := by
  intro m mem
  obtain own | inner := mem_append.mp mem
  · obtain ⟨f, known, rfl⟩ := mem_map.mp own
    exact ⟨plain_keys f known, reads_pasted _ (plain.fields f known), rfl, zero_le _⟩
  · obtain ⟨p, known, rfl⟩ := mem_map.mp inner
    exact ⟨(by decide : PlainText "children".toList), below p (Option.mem_toList.mp known)⟩

theorem value_object (plain : ∀ m ∈ ms, PlainText m.1) :
    (objectPiece ms).1.value = .obj (mapOf (ms.map fun m => (m.1, m.2.1.value))) :=
  membersObject_value plain

theorem value_fields (plain : PlainData data) (children : Option Piece) :
    (nodeFields textPiece data children).map (fun m => (m.1, m.2.1.value)) =
      nodeFields .str data (children.map fun p => p.1.value) := by
  rw [nodeFields, nodeFields, map_append, map_map]
  congr 1
  · refine map_congr_left fun f mem => ?_
    simp only [Function.comp_apply, textPiece, Raw.value, unquote_literal _ (plain.fields f mem)]
  · cases children <;> rfl

/-- The induction is over the levels; those of the children are one less. -/
theorem sound_node (levels : Nat) (node : Node) (plain : node.All PlainData) :
    Sound (2 * levels + 1) (nodePiece levels node) ∧
      (nodePiece levels node).1.value = metadata levels node := by
  induction levels generalizing node with
  | zero =>
    have own := (all_iff.mp plain).1
    have fields := @sound_fields 0 _ own none nofun
    refine ⟨sound_object (cons_ne_nil _ _) fields, ?_⟩
    rw [nodePiece, nodeObject, value_object fun m mem => (fields m mem).1, value_fields own]
    rfl
  | succ levels ih =>
    obtain ⟨own, inner⟩ := all_iff.mp plain
    have below : ∀ m ∈ node.child.map fun child => (child.name, nodePiece levels child),
        PlainText m.1 ∧ Sound (2 * levels + 1) m.2 := by
      intro m inside
      obtain ⟨child, known, rfl⟩ := mem_map.mp inside
      exact ⟨(all_iff.mp (inner child known)).1.name, (ih child (inner child known)).1⟩
    have fields := @sound_fields (2 * (levels + 1)) _ own (if node.child = [] then none
      else some (objectPiece (node.child.map fun child => (child.name, nodePiece levels child))))
      (by
        intro p mem
        split_ifs at mem with leaf
        · cases mem
        · cases mem
          exact sound_object (by simpa using leaf) below)
    refine ⟨sound_object (cons_ne_nil _ _) fields, ?_⟩
    have values : (node.child.map fun child => (child.name, nodePiece levels child)).map
        (fun m => (m.1, m.2.1.value)) =
          node.child.map fun child => (child.name, metadata levels child) := by
      rw [map_map]
      exact map_congr_left fun child known => congrArg _ (ih child (inner child known)).2
    rw [nodePiece, nodeObject, ← nodePiece, value_object fun m mem => (fields m mem).1,
      value_fields own, metadata, nodeObject, ← metadata]
    split_ifs with leaf
    · rfl
    · rw [Option.map_some, value_object fun m mem => (below m mem).1, values]

/-! ### The text -/

theorem dropComma_quote (t : Str) : dropComma (t ++ ['"', ',']) = t ++ ['"'] := by
  simp [dropComma]

theorem dropComma_brace (t : Str) : dropComma (t ++ ['\x7d']) = t ++ ['\x7d'] := by
  simp [dropComma]

theorem jsonifyData_eq (plain : PlainData data) : jsonifyData data =
    pasted data.name ++ ':' :: '\x7b' :: commas (nodeFields textPiece data none) := by
  have default : jsonifyDefault data.defaultValue = commas (if data.defaultValue = [] then []
      else [("default".toList, textPiece data.defaultValue)]) := by
    have noJson := plain.default
    generalize data.defaultValue = text at noJson ⊢
    cases text with
    | nil => rfl
    | cons c =>
      have noJson := noJson c rfl
      rw [jsonifyDefault, if_neg (by simp [noJson])]
      simp [commas, textPiece, pastedMember, pasted]
  rw [jsonifyData, default, nodeFields, textFields]
  split_ifs <;> simp [commas, textPiece, pastedMember, pasted]

theorem dropComma_fields (t : Str) : dropComma (t ++ commas (nodeFields textPiece data none)) =
    t ++ (commas (nodeFields textPiece data none)).dropLast := by
  obtain none_ | ⟨init, last, fields⟩ := eq_nil_or_concat (textFields data)
  · cases none_
  · have text : commas (nodeFields textPiece data none) =
        (commas (init.map fun f => (f.1, textPiece f.2)) ++ pasted last.1 ++ ':' :: '"' ::
          last.2) ++ ['"', ','] := by
      simp [nodeFields, fields, commas, textPiece, pastedMember, pasted]
    rw [text, ← append_assoc, dropComma_quote, dropLast_append_of_ne_nil (cons_ne_nil _ _)]
    simp

theorem commas_children (c : Piece) : commas (nodeFields textPiece data (some c)) =
    commas (nodeFields textPiece data none) ++ pastedMember "children" c.2 ++ [','] := by
  simp [nodeFields, commas]

theorem jsonify_own (plain : PlainData data) : dropComma (jsonifyData data) ++ "\x7d," =
      pastedMember data.name (objectPiece (nodeFields textPiece data none)).2 ++ [','] := by
  have text : pasted data.name ++ ':' :: '\x7b' :: commas (nodeFields textPiece data none) =
      (pasted data.name ++ [':', '\x7b']) ++ commas (nodeFields textPiece data none) := by
    simp
  rw [jsonifyData_eq plain, text, dropComma_fields]
  simp [objectPiece, pastedMember]

theorem jsonifyTreeNode_eq (levels : Nat) (node : Node) (plain : node.All PlainData) :
    jsonifyTreeNode (levels + 1) node =
      pastedMember node.name (nodePiece levels node).2 ++ [','] := by
  induction levels generalizing node with
  | zero =>
    rw [jsonifyTreeNode_succ, jsonifyBelow, if_neg (fun shown => absurd shown.1 (lt_irrefl 0)),
      append_nil]
    exact jsonify_own (all_iff.mp plain).1
  | succ levels ih =>
    obtain ⟨own, inner⟩ := all_iff.mp plain
    have below : node.child.flatMap (jsonifyTreeNode (levels + 1)) =
        commas (node.child.map fun child => (child.name, nodePiece levels child)) := by
      rw [commas, flatMap_map]
      exact flatMap_congr fun child known => ih child (inner child known)
    rw [jsonifyTreeNode_succ, jsonifyBelow, below, nodePiece, nodeObject, ← nodePiece]
    obtain leaf | shown := eq_or_ne node.child []
    · rw [if_neg (fun shown => shown.2 leaf), append_nil, if_pos leaf]
      exact jsonify_own own
    · rw [if_pos ⟨succ_pos _, shown⟩, if_neg shown, objectPiece, commas_children, dropLast_concat]
      have some_ :
          commas (node.child.map fun child => (child.name, nodePiece levels child)) ≠ [] := by
        obtain ⟨first, rest, same⟩ := exists_cons_of_ne_nil shown
        simp [same, commas]
      rw [dropLast_append_of_ne_nil some_, jsonifyData_eq own, ← append_assoc, dropComma_brace]
      simp [objectPiece, pastedMember, pasted, Node.name]

/-- The text is JSON for the nodes down to the depth, within the limit of the decoder. -/
theorem metadata_faithful (levels : Nat) (root : Node) (plain : root.All PlainData) :
    ∃ w, Reads w (jsonObject (jsonifyTreeNode (levels + 1) root)) ∧ w.nesting ≤ 2 * (levels + 1) ∧
      w.value = .obj [(root.name, metadata levels root)] ∧ (w.nesting ≤ maxNestingDepth →
        unmarshalMap (jsonObject (jsonifyTreeNode (levels + 1) root)) =
          some [(root.name, metadata levels root)]) := by
  obtain ⟨sound, value⟩ := sound_node levels root plain
  have each : ∀ m ∈ [(root.name, nodePiece levels root)],
      PlainText m.1 ∧ Sound (2 * levels + 1) m.2 := by
    simpa using ⟨(all_iff.mp plain).1.name, sound⟩
  have keys := fun m member => (each m member).1
  have whole := sound_object (cons_ne_nil _ _) each
  have text : jsonObject (jsonifyTreeNode (levels + 1) root) =
      (objectPiece [(root.name, nodePiece levels root)]).2 := by
    rw [jsonifyTreeNode_eq levels root plain, objectPiece, commas, flatMap_singleton]
    rfl
  rw [text, ← value]
  exact ⟨_, whole.reads, whole.nested, value_object keys, fun nested =>
    unmarshalMap_of_reads whole.reads keys nested fun m member => (each m member).2.range⟩

theorem metadata_faithful_branches : branchesTree.All PlainData ∧ ∃ w,
    Reads w (jsonObject (jsonifyTreeNode 2 branchesTree)) ∧ w.nesting ≤ 4 ∧
      w.value = .obj [("V".toList, metadata 1 branchesTree)] ∧ (w.nesting ≤ maxNestingDepth →
        unmarshalMap (jsonObject (jsonifyTreeNode 2 branchesTree)) =
          some [("V".toList, metadata 1 branchesTree)]) := by
  have plain : branchesTree.All PlainData := by
    simp only [branchesTree, Node.All, allNodes, and_true]
    refine ⟨?_, ⟨?_, ?_⟩, ?_, ?_⟩ <;> exact ⟨by decide, by decide, by rintro _ ⟨⟩⟩
  exact ⟨plain, metadata_faithful 1 branchesTree plain⟩

end Vissr.Core
