import TriadSim.Datatree.Run

/-!
# The edit-config table

What each default operation makes of the subtrees its documents address, stated on the leaves a
document stands for, and the proof that the editor's walk does exactly that when the documents
carry no operation of their own.  The main result is `proposal_follows_edit_table`.
-/

namespace TriadSim
namespace Datatree

open Go Library Router Store

/-! ## The leaves of a document -/

mutual

/-- No operation attribute on a document or below it. -/
def Document.plain : Document → Bool
  | .mk name text attrs children =>
    (Document.attr (.mk name text attrs children) "operation").isNone && plainAll children

def plainAll : List Document → Bool
  | [] => true
  | document :: rest => document.plain && plainAll rest

end

mutual

/-- The leaves a document stands for, in document order: every node on the way is
known, every leaf is writable and its text is a value of it. -/
def documentLeaves (r : Router) : Document → GoString → List Node →
    Except Err (List (GoString × Leaf))
  | .mk name text attrs children, base, schema =>
    match nodeNamed schema name with
    | none => .error (unknownElement name)
    | some node => do
        let path ← Editor.addressOf base (.mk name text attrs children) node
        match node.kind with
        | .leaf kind => do
            let value ← Editor.leafValue r path (.mk name text attrs children) kind
            return [(path, value)]
        | _ => do
            let nodes ← childrenOf path
            forestLeaves r children path nodes

def forestLeaves (r : Router) : List Document → GoString → List Node →
    Except Err (List (GoString × Leaf))
  | [], _, _ => .ok []
  | document :: rest, base, schema => do
      let first ← documentLeaves r document base schema
      let others ← forestLeaves r rest base schema
      return first ++ others

end

/-- Put leaves one after the other; a later value of a leaf replaces an earlier one. -/
def Editor.putAll (e : Editor) (leaves : List (GoString × Leaf)) : Editor :=
  leaves.foldl (fun current leaf => current.put leaf.1 leaf.2) e

/-- What a walk writes: the operation `none` leaves the proposal as it is. -/
def Editor.write (e : Editor) (op : Op) (leaves : List (GoString × Leaf)) : Editor :=
  match op with
  | .none => e
  | _ => e.putAll leaves

/-- The value a list of leaves gives to a path: the last one. -/
def lastValue : List (GoString × Leaf) → GoString → Option Leaf
  | [], _ => none
  | leaf :: rest, path =>
    (lastValue rest path).or (if leaf.1 = path then some leaf.2 else none)

/-! ## Walks without operations of their own -/

namespace Editor

variable {r : Router}

variable {document : Document}

theorem parseOperationAttr_of_plain (hPlain : document.plain = true) :
    parseOperationAttr document = .ok none := by
  cases document with
  | mk name text attrs children =>
    rw [Document.plain, Bool.and_eq_true, Option.isNone_iff_eq_none] at hPlain
    rw [parseOperationAttr, hPlain.1]

theorem putAll_append (e : Editor) (first second : List (GoString × Leaf)) :
    e.putAll (first ++ second) = (e.putAll first).putAll second := by
  rw [putAll, List.foldl_append]
  rfl

variable {base path : GoString} {schema : List Node}

/-- A walk without an operation of its own goes by the kind of the node. -/
theorem walk_of_plain {node : Node} (op : Op) (e : Editor) (hPlain : document.plain = true)
    (hNode : nodeNamed schema document.name = some node)
    (hAddress : addressOf base document node = .ok path) :
    walk r document base schema op e =
      match node.kind with
      | .leaf kind => leaf r e path document kind op
      | _ => e.enter path document.name op fun nodes prepared =>
        walkAll r document.children path nodes (childOperation op) prepared := by
  have hAttr := parseOperationAttr_of_plain hPlain
  cases document with
  | mk name text attrs children =>
    rw [walk]
    dsimp only
    rw [show nodeNamed schema name = some node from hNode]
    dsimp only
    rw [hAttr, hAddress]
    rfl

/-- The leaves of a document, by the kind of its node. -/
theorem documentLeaves_eq_ok {leaves : List (GoString × Leaf)}
    (hLeaves : documentLeaves r document base schema = .ok leaves) :
    ∃ node path, nodeNamed schema document.name = some node ∧
      addressOf base document node = .ok path ∧
      ((∃ kind value, node.kind = .leaf kind ∧ leafValue r path document kind = .ok value ∧
          leaves = [(path, value)]) ∨
        ((∀ kind, node.kind ≠ .leaf kind) ∧ ∃ nodes, childrenOf path = .ok nodes ∧
          forestLeaves r document.children path nodes = .ok leaves)) := by
  cases document with
  | mk name text attrs children =>
    rw [documentLeaves] at hLeaves
    cases hNode : nodeNamed schema name with
    | none =>
      rw [hNode] at hLeaves
      cases hLeaves
    | some node =>
      rw [hNode] at hLeaves
      obtain ⟨path, hAddress, hLeaves⟩ := bind_eq_ok_iff.mp hLeaves
      refine ⟨node, path, hNode, hAddress, ?_⟩
      cases hKind : node.kind with
      | leaf kind =>
        rw [hKind] at hLeaves
        obtain ⟨value, hValue, hLeaves⟩ := bind_eq_ok_iff.mp hLeaves
        cases hLeaves
        exact Or.inl ⟨kind, value, rfl, hValue, rfl⟩
      | container | list key =>
        rw [hKind] at hLeaves
        obtain ⟨nodes, hNodes, hLeaves⟩ := bind_eq_ok_iff.mp hLeaves
        exact Or.inr ⟨nofun, nodes, hNodes, hLeaves⟩

theorem plainAll_children (hPlain : document.plain = true) :
    plainAll document.children = true := by
  cases document with
  | mk name text attrs children =>
    rw [Document.plain, Bool.and_eq_true] at hPlain
    exact hPlain.2

/-- Entering a subtree that is not cleared away. -/
theorem enter_of_prepareSubtree {e prepared : Editor} {name : GoString} {op : Op}
    {nodes : List Node} {walkChildren : List Node → Editor → Except Err Editor}
    (hPrepare : e.prepareSubtree path op = .ok prepared) (hDelete : op ≠ .delete)
    (hRemove : op ≠ .remove) (hNodes : childrenOf path = .ok nodes) :
    e.enter path name op walkChildren = walkChildren nodes prepared := by
  rw [enter, hPrepare]
  show (if op = .delete || op = .remove then Except.ok prepared else _) = _
  simp [hDelete, hRemove, hNodes]

theorem write_append (e : Editor) (op : Op) (first second : List (GoString × Leaf)) :
    e.write op (first ++ second) = (e.write op first).write op second := by
  cases op with
  | none => rfl
  | _ => exact putAll_append e first second

mutual

/-- Merging a document puts its leaves, and the operation `none` does nothing. -/
theorem walk_write : ∀ (document : Document) (base : GoString) (schema : List Node) (op : Op)
    (e : Editor) (leaves : List (GoString × Leaf)), op = .merge ∨ op = .none →
    document.plain = true → documentLeaves r document base schema = .ok leaves →
    walk r document base schema op e = .ok (e.write op leaves)
  | .mk name text attrs children, base, schema, op, e, leaves, hOp, hPlain, hLeaves => by
      obtain ⟨node, path, hNode, hAddress, hKind⟩ := documentLeaves_eq_ok hLeaves
      rw [walk_of_plain op e hPlain hNode hAddress]
      rcases hKind with ⟨kind, value, hLeaf, hValue, rfl⟩ | ⟨hInner, nodes, hNodes, hForest⟩
      · rcases hOp with rfl | rfl
        · simp only [hLeaf, leaf, hValue]
          rfl
        · simp only [hLeaf]
          rfl
      · have hChildren := walkAll_write children path nodes op e leaves hOp
          (plainAll_children hPlain) hForest
        have hEnter : e.enter path name op (fun nodes prepared =>
            walkAll r children path nodes (childOperation op) prepared) =
              .ok (e.write op leaves) := by
          rcases hOp with rfl | rfl
          · rw [enter_of_prepareSubtree rfl (by simp) (by simp) hNodes]
            exact hChildren
          · rw [enter_of_prepareSubtree rfl (by simp) (by simp) hNodes]
            exact hChildren
        cases hShape : node.kind with
        | leaf kind => exact absurd hShape (hInner kind)
        | container | list key => exact hEnter

theorem walkAll_write : ∀ (documents : List Document) (base : GoString) (schema : List Node)
    (op : Op) (e : Editor) (leaves : List (GoString × Leaf)), op = .merge ∨ op = .none →
    plainAll documents = true → forestLeaves r documents base schema = .ok leaves →
    walkAll r documents base schema op e = .ok (e.write op leaves)
  | [], base, schema, op, e, leaves, hOp, _, hLeaves => by
      cases hLeaves
      rcases hOp with rfl | rfl <;> rfl
  | document :: rest, base, schema, op, e, leaves, hOp, hPlain, hLeaves => by
      rw [plainAll, Bool.and_eq_true] at hPlain
      obtain ⟨first, hFirst, hLeaves⟩ := bind_eq_ok_iff.mp hLeaves
      obtain ⟨others, hOthers, hLeaves⟩ := bind_eq_ok_iff.mp hLeaves
      cases hLeaves
      rw [walkAll, walk_write document base schema op e first hOp hPlain.1 hFirst, write_append]
      exact walkAll_write rest base schema op _ others hOp hPlain.2 hOthers

end

theorem getElem?_putAll (e : Editor) (leaves : List (GoString × Leaf)) (path : GoString) :
    (e.putAll leaves).proposed[path]? = (lastValue leaves path).or e.proposed[path]? := by
  induction leaves generalizing e with
  | nil => rfl
  | cons leaf rest ih =>
    have hStep : e.putAll (leaf :: rest) = (e.put leaf.1 leaf.2).putAll rest := rfl
    rw [hStep, ih, getElem?_put, lastValue]
    by_cases hPath : leaf.1 = path
    · simp only [if_pos hPath]
      cases lastValue rest path <;> rfl
    · simp only [if_neg hPath]
      cases lastValue rest path <;> rfl

end Editor

/-! ## The table -/

/-- Some configuration leaf is covered. -/
def HoldsConfig (r : Router) (content : Values) (node : Node) (root : GoString) : Prop :=
  ∃ path : GoString, path ∈ content ∧ Covers node root path ∧ r.isState path = false

/-- The row of the table: what a covered leaf becomes, from the old content and the
leaves of the document. -/
def tableEntry (r : Router) (op : Op) (old : Values) (leaves : List (GoString × Leaf))
    (path : GoString) : Option Leaf :=
  let state := if r.isState path then old[path]? else none
  match op with
  | .merge => (lastValue leaves path).or old[path]?
  | .replace => (lastValue leaves path).or state
  | .create => (lastValue leaves path).or state
  | .delete => state
  | .remove => state
  | .none => old[path]?

/-- When the table lets an operation through. -/
def Admits (r : Router) (op : Op) (content : Values) (node : Node) (root : GoString) : Prop :=
  match op with
  | .create => ¬ HoldsConfig r content node root
  | .delete => HoldsConfig r content node root
  | _ => True

/-- The error of an operation that the table does not let through. -/
def refusal (op : Op) (root : GoString) : Err :=
  match op with
  | .create => dataExists root
  | _ => dataMissing root

/-- A document names a known node at `root`; unless the subtree goes away as a whole,
all its leaves are known, writable and well written. -/
structure Known (r : Router) (op : Op) (base : GoString) (schema : List Node)
    (document : Document) (node : Node) (root : GoString) (leaves : List (GoString × Leaf)) :
    Prop where
  named : nodeNamed schema document.name = some node
  addressed : Editor.addressOf base document node = .ok root
  config : ∀ kind, node.kind = .leaf kind → r.isState root = false
  read : op = .delete ∨ op = .remove ∨ documentLeaves r document base schema = .ok leaves

/-! ## One document -/

namespace Editor

variable {r : Router} {e : Editor} {node : Node} {root : GoString}

variable {kind : LeafKind} {op : Op} {leaves : List (GoString × Leaf)} {document : Document}

theorem holdsConfig_leaf_iff (root : GoString) (hSound : e.Sound r)
    (hKind : node.kind = .leaf kind) :
    HoldsConfig r e.proposed node root ↔ e.isWritable root = true := by
  rw [hSound.writable_iff]
  constructor
  · rintro ⟨path, hMem, hCovers, hState⟩
    rw [covers_leaf_iff hKind] at hCovers
    subst hCovers
    exact ⟨hMem, hState⟩
  · rintro ⟨hMem, hState⟩
    exact ⟨root, hMem, (covers_leaf_iff hKind root).mpr rfl, hState⟩

theorem holdsConfig_inner_iff (hSound : e.Sound r) (hRoot : ¬ LeafPath root)
    (hInner : ∀ kind, node.kind ≠ .leaf kind) :
    HoldsConfig r e.proposed node root ↔ e.contains root = true := by
  have hSelf : e.isWritable root = false := by
    rw [Bool.eq_false_iff]
    intro hWritable
    exact hRoot (hSound.leaves root ((hSound.writable_iff root).mp hWritable).1)
  have hBelow : e.contains root = true ↔ ∃ path, path ∈ e.below root := by
    rw [contains, hSelf, Bool.false_or, Bool.not_eq_true', List.isEmpty_eq_false_iff_exists_mem]
  rw [hBelow]
  constructor
  · rintro ⟨path, hMem, hCovers, hState⟩
    exact ⟨path, mem_below.mpr ⟨hMem, (hSound.writable_iff path).mpr ⟨hMem, hState⟩,
      (covers_inner_iff hInner path).mp hCovers⟩⟩
  · rintro ⟨path, hPath⟩
    obtain ⟨hMem, hWritable, hPrefixed⟩ := mem_below.mp hPath
    exact ⟨path, hMem, (covers_inner_iff hInner path).mpr hPrefixed,
      ((hSound.writable_iff path).mp hWritable).2⟩

/-- Clearing a subtree leaves its state leaves. -/
theorem getElem?_wipe (hSound : e.Sound r) {path : GoString}
    (hPath : Below root path) :
    (e.wipe root).proposed[path]? = if r.isState path then e.proposed[path]? else none := by
  have hNe : path ≠ root := by
    rintro rfl
    have hLength := (hasPrefix_iff.mp hPath).length_le
    simp at hLength
  rw [wipe, getElem?_removeAll]
  by_cases hState : r.isState path = true
  · rw [if_pos hState, if_neg]
    intro hGone
    rcases List.mem_append.mp hGone with hBelow | hSelf
    · have hConfig := ((hSound.writable_iff path).mp (mem_below.mp hBelow).2.1).2
      rw [hConfig] at hState
      cases hState
    · exact hNe (List.mem_singleton.mp hSelf)
  · rw [if_neg hState]
    by_cases hMem : path ∈ e.proposed
    · have hWritable : e.isWritable path = true :=
        (hSound.writable_iff path).mpr ⟨hMem, by simpa using hState⟩
      rw [if_pos (List.mem_append_left _ (mem_below.mpr ⟨hMem, hWritable, hPath⟩))]
    · rw [FinMap.mem_iff_isSome, Option.not_isSome_iff_eq_none] at hMem
      rw [hMem, ite_self]

/-- What the table says about one document. -/
def Meets (r : Router) (op : Op) (before : Editor) (node : Node) (root : GoString)
    (leaves : List (GoString × Leaf)) (outcome : Except Err Editor) : Prop :=
  (Admits r op before.proposed node root → ∃ after, outcome = .ok after ∧
      ∀ path : GoString, Covers node root path →
        after.proposed[path]? = tableEntry r op before.proposed leaves path) ∧
    (¬ Admits r op before.proposed node root → outcome = .error (refusal op root))

variable {after : Editor} {base : GoString} {schema : List Node}

theorem Meets.admitted (hAdmits : Admits r op e.proposed node root)
    (hTable : ∀ path : GoString, Covers node root path →
      after.proposed[path]? = tableEntry r op e.proposed leaves path) :
    Meets r op e node root leaves (.ok after) :=
  ⟨fun _ => ⟨after, rfl, hTable⟩, fun hRefused => absurd hAdmits hRefused⟩

theorem Meets.refused (hRefused : ¬ Admits r op e.proposed node root) :
    Meets r op e node root leaves (.error (refusal op root)) :=
  ⟨fun hAdmits => absurd hAdmits hRefused, fun _ => rfl⟩

/-- A leaf that is set has the value of the document, whatever the operation. -/
theorem meets_put {value : Leaf} (hKind : node.kind = .leaf kind)
    (hOp : op = .merge ∨ op = .replace ∨ op = .create)
    (hAdmits : Admits r op e.proposed node root) :
    Meets r op e node root [(root, value)] (.ok (e.put root value)) := by
  refine .admitted hAdmits ?_
  intro path hCovers
  rw [covers_leaf_iff hKind] at hCovers
  subst hCovers
  have hLast : lastValue [(path, value)] path = some value := by simp [lastValue]
  rw [getElem?_put, if_pos rfl]
  rcases hOp with rfl | rfl | rfl <;> simp [tableEntry, hLast]

/-- A configuration leaf that is removed is gone. -/
theorem meets_removeLeaf (hKind : node.kind = .leaf kind) (hConfig : r.isState root = false)
    (hOp : op = .delete ∨ op = .remove) (hAdmits : Admits r op e.proposed node root) :
    Meets r op e node root leaves (.ok (e.remove root)) := by
  refine .admitted hAdmits ?_
  intro path hCovers
  rw [covers_leaf_iff hKind] at hCovers
  subst hCovers
  rw [remove, getElem?_removeAll, if_pos (List.mem_singleton.mpr rfl)]
  rcases hOp with rfl | rfl <;> simp [tableEntry, hConfig]

theorem leaf_meets (value : Leaf) (hSound : e.Sound r) (hKind : node.kind = .leaf kind)
    (hConfig : r.isState root = false)
    (hValue : op = .delete ∨ op = .remove ∨ leafValue r root document kind = .ok value) :
    Meets r op e node root [(root, value)] (leaf r e root document kind op) := by
  have hHolds := holdsConfig_leaf_iff root hSound hKind
  cases op with
  | merge | replace =>
    have hRead : leafValue r root document kind = .ok value := by simpa using hValue
    simp only [leaf, hRead]
    exact meets_put hKind (by simp) trivial
  | create =>
    have hRead : leafValue r root document kind = .ok value := by simpa using hValue
    have hLeaf : leaf r e root document kind .create =
        if e.isWritable root then .error (dataExists root) else .ok (e.put root value) := by
      simp only [leaf, hRead]
      show (if (decide (Op.create = .create) && e.isWritable root) = true then _ else _) = _
      simp
    rw [hLeaf]
    by_cases hWritable : e.isWritable root = true
    · rw [if_pos hWritable]
      exact .refused fun hAdmits => hAdmits (hHolds.mpr hWritable)
    · rw [if_neg hWritable]
      exact meets_put hKind (by simp) fun hHeld => hWritable (hHolds.mp hHeld)
  | delete =>
    simp only [leaf]
    by_cases hWritable : e.isWritable root = true
    · rw [if_pos hWritable]
      exact meets_removeLeaf hKind hConfig (by simp) (hHolds.mpr hWritable)
    · have hAbsent : root ∉ e.proposed := fun hMem =>
        hWritable ((hSound.writable_iff root).mpr ⟨hMem, hConfig⟩)
      rw [if_neg hWritable, if_neg hAbsent]
      exact .refused fun hAdmits => hWritable (hHolds.mp hAdmits)
  | remove =>
    have hFree : (decide (root ∈ e.proposed) && !e.isWritable root) = false := by
      by_cases hMem : root ∈ e.proposed
      · simp [(hSound.writable_iff root).mpr ⟨hMem, hConfig⟩]
      · simp [hMem]
    simp only [leaf, hFree, Bool.false_eq_true, if_false]
    exact meets_removeLeaf hKind hConfig (by simp) trivial
  | none => exact .admitted trivial fun path _ => rfl

/-- A cleared subtree in which nothing is written. -/
theorem meets_wipe (hSound : e.Sound r) (hInner : ∀ kind, node.kind ≠ .leaf kind)
    (hOp : op = .delete ∨ op = .remove) (hAdmits : Admits r op e.proposed node root) :
    Meets r op e node root leaves (.ok (e.wipe root)) := by
  refine .admitted hAdmits ?_
  intro path hCovers
  rw [getElem?_wipe hSound ((covers_inner_iff hInner path).mp hCovers)]
  rcases hOp with rfl | rfl <;> rfl

theorem enter_meets (nodes : List Node) (hSound : e.Sound r) (hRoot : ¬ LeafPath root)
    (hInner : ∀ kind, node.kind ≠ .leaf kind) (hPlain : document.plain = true)
    (hRead : op = .delete ∨ op = .remove ∨ (childrenOf root = .ok nodes ∧
      forestLeaves r document.children root nodes = .ok leaves)) :
    Meets r op e node root leaves (e.enter root document.name op fun nodes prepared =>
      walkAll r document.children root nodes (childOperation op) prepared) := by
  have hHolds := holdsConfig_inner_iff hSound hRoot hInner
  have hChildren := plainAll_children hPlain
  cases op with
  | merge =>
    obtain ⟨hNodes, hForest⟩ : childrenOf root = .ok nodes ∧ _ := by simpa using hRead
    rw [enter_of_prepareSubtree rfl (by simp) (by simp) hNodes]
    rw [show childOperation .merge = .merge from rfl,
      walkAll_write _ root nodes .merge e leaves (Or.inl rfl) hChildren hForest]
    exact .admitted trivial fun path _ => getElem?_putAll e leaves path
  | replace =>
    obtain ⟨hNodes, hForest⟩ : childrenOf root = .ok nodes ∧ _ := by simpa using hRead
    rw [enter_of_prepareSubtree rfl (by simp) (by simp) hNodes]
    rw [show childOperation .replace = .merge from rfl,
      walkAll_write _ root nodes .merge _ leaves (Or.inl rfl) hChildren hForest]
    refine .admitted trivial ?_
    intro path hCovers
    rw [show (e.wipe root).write .merge leaves = (e.wipe root).putAll leaves from rfl,
      getElem?_putAll, getElem?_wipe hSound ((covers_inner_iff hInner path).mp hCovers)]
    rfl
  | create =>
    obtain ⟨hNodes, hForest⟩ : childrenOf root = .ok nodes ∧ _ := by simpa using hRead
    by_cases hContains : e.contains root = true
    · have hPrepare : e.prepareSubtree root .create = .error (dataExists root) := by
        rw [prepareSubtree, if_pos hContains]
      rw [enter, hPrepare]
      exact .refused fun hAdmits => hAdmits (hHolds.mpr hContains)
    · have hPrepare : e.prepareSubtree root .create = .ok e := by
        rw [prepareSubtree, if_neg hContains]
      have hEmpty : ¬ HoldsConfig r e.proposed node root := fun hHeld =>
        hContains (hHolds.mp hHeld)
      rw [enter_of_prepareSubtree hPrepare (by simp) (by simp) hNodes]
      rw [show childOperation .create = .merge from rfl,
        walkAll_write _ root nodes .merge e leaves (Or.inl rfl) hChildren hForest]
      refine .admitted hEmpty ?_
      intro path hCovers
      -- Nothing but state is covered, so the old leaves there are the state leaves.
      have hOld : e.proposed[path]? = if r.isState path then e.proposed[path]? else none := by
        by_cases hState : r.isState path = true
        · rw [if_pos hState]
        · rw [if_neg hState, ← Option.not_isSome_iff_eq_none, ← FinMap.mem_iff_isSome]
          exact fun hMem => hEmpty ⟨path, hMem, hCovers, by simpa using hState⟩
      rw [show e.write .merge leaves = e.putAll leaves from rfl, getElem?_putAll, hOld]
      rfl
  | delete =>
    by_cases hContains : e.contains root = true
    · have hPrepare : e.prepareSubtree root .delete = .ok (e.wipe root) := by
        rw [prepareSubtree, if_pos hContains]
      rw [enter, hPrepare]
      exact meets_wipe hSound hInner (by simp) (hHolds.mpr hContains)
    · have hPrepare : e.prepareSubtree root .delete = .error (dataMissing root) := by
        rw [prepareSubtree, if_neg hContains]
      rw [enter, hPrepare]
      exact .refused fun hAdmits => hContains (hHolds.mp hAdmits)
  | remove => exact meets_wipe hSound hInner (by simp) trivial
  | none =>
    obtain ⟨hNodes, hForest⟩ : childrenOf root = .ok nodes ∧ _ := by simpa using hRead
    rw [enter_of_prepareSubtree rfl (by simp) (by simp) hNodes]
    rw [show childOperation .none = .none from rfl,
      walkAll_write _ root nodes .none e leaves (Or.inr rfl) hChildren hForest]
    exact .admitted trivial fun path _ => rfl

/-- The leaves of a document that takes its subtree away play no part. -/
theorem Meets.of_removal {others : List (GoString × Leaf)} {outcome : Except Err Editor}
    (hOp : op = .delete ∨ op = .remove) (hMeets : Meets r op e node root leaves outcome) :
    Meets r op e node root others outcome := by
  rcases hOp with rfl | rfl <;> exact hMeets

/-- A document without operations of its own does what the table says. -/
theorem walk_meets (hSchema : childrenOf base = .ok schema) (hSound : e.Sound r)
    (hPlain : document.plain = true) (hKnown : Known r op base schema document node root leaves) :
    Meets r op e node root leaves (walk r document base schema op e) := by
  rw [walk_of_plain op e hPlain hKnown.named hKnown.addressed]
  have hSubtree : (∀ kind, node.kind ≠ .leaf kind) → Meets r op e node root leaves
      (e.enter root document.name op fun nodes prepared =>
        walkAll r document.children root nodes (childOperation op) prepared) := by
    intro hInner
    have hRoot := not_leafPath_of_addressOf hSchema hKnown.named hInner hKnown.addressed
    rcases hKnown.read with hOp | hOp | hLeaves
    · exact enter_meets [] hSound hRoot hInner hPlain (Or.inl hOp)
    · exact enter_meets [] hSound hRoot hInner hPlain (Or.inr (Or.inl hOp))
    · obtain ⟨found, path, hNode, hAddress, hKind⟩ := documentLeaves_eq_ok hLeaves
      obtain rfl : found = node := Option.some.inj (hNode.symm.trans hKnown.named)
      obtain rfl : path = root := Except.ok.inj (hAddress.symm.trans hKnown.addressed)
      rcases hKind with ⟨kind, _, hLeaf, _⟩ | ⟨_, nodes, hNodes, hForest⟩
      · exact absurd hLeaf (hInner kind)
      · exact enter_meets nodes hSound hRoot hInner hPlain (Or.inr (Or.inr ⟨hNodes, hForest⟩))
  cases hKind : node.kind with
  | container | list key => exact hSubtree (by simp [hKind])
  | leaf kind =>
    have hConfig := hKnown.config kind hKind
    rcases hKnown.read with hOp | hOp | hLeaves
    · exact .of_removal (Or.inl hOp)
        (leaf_meets (.bool false) hSound hKind hConfig (Or.inl hOp))
    · exact .of_removal (Or.inr hOp)
        (leaf_meets (.bool false) hSound hKind hConfig (Or.inr (Or.inl hOp)))
    · obtain ⟨found, path, hNode, hAddress, hShape⟩ := documentLeaves_eq_ok hLeaves
      obtain rfl : found = node := Option.some.inj (hNode.symm.trans hKnown.named)
      obtain rfl : path = root := Except.ok.inj (hAddress.symm.trans hKnown.addressed)
      rcases hShape with ⟨other, value, hLeaf, hValue, rfl⟩ | ⟨hInner, _⟩
      · rw [hKind, NodeKind.leaf.injEq] at hLeaf
        subst hLeaf
        exact leaf_meets value hSound hKind hConfig (Or.inr (Or.inr hValue))
      · exact absurd hKind (hInner kind)

/-- A step on one document, with what it leaves alone. -/
theorem walk_step (hSchema : childrenOf base = .ok schema) (hSound : e.Sound r)
    (hNode : nodeNamed schema document.name = some node)
    (hAddress : addressOf base document node = .ok root)
    (hWalk : walk r document base schema op e = .ok after) :
    after.Sound r ∧ ∀ path : GoString, ¬ Covers node root path →
      after.proposed[path]? = e.proposed[path]? := by
  have hTouches := touches_walk document base schema op e after hSchema hSound hWalk
  refine ⟨hTouches.sound, ?_⟩
  intro path hOutside
  refine hTouches.outside path ?_
  rintro ⟨found, other, hFound, hOther, hCovers⟩
  obtain rfl : found = node := Option.some.inj (hFound.symm.trans hNode)
  obtain rfl : other = root := Except.ok.inj (hOther.symm.trans hAddress)
  exact hOutside hCovers

end Editor

/-! ## All documents -/

/-- A document with the node and the subtree it addresses and the leaves it stands
for. -/
structure Addressed where
  document : Document
  node : Node
  root : GoString
  leaves : List (GoString × Leaf)

namespace Addressed

def Covers (target : Addressed) (path : GoString) : Prop :=
  Datatree.Covers target.node target.root path

/-- The table lets the operation through on the target's subtree. -/
def Admits (r : Router) (op : Op) (content : Values) (target : Addressed) : Prop :=
  Datatree.Admits r op content target.node target.root

/-- The document is known at its address and carries no operation. -/
structure Proper (r : Router) (op : Op) (base : GoString) (schema : List Node)
    (target : Addressed) : Prop where
  known : Known r op base schema target.document target.node target.root target.leaves
  plain : target.document.plain = true

/-- Two targets have no leaf in common. -/
def Disjoint (first second : Addressed) : Prop :=
  ∀ path, ¬ (first.Covers path ∧ second.Covers path)

variable {r : Router} {op : Op} {target : Addressed}

variable {content content' before : Values} {outcome : Except Err Editor}

/-- Whether the table lets an operation through depends on the covered leaves only. -/
theorem admits_congr
    (hSame : ∀ path : GoString, target.Covers path → content[path]? = content'[path]?) :
    target.Admits r op content ↔ target.Admits r op content' := by
  have hHolds : HoldsConfig r content target.node target.root ↔
      HoldsConfig r content' target.node target.root := by
    constructor
    · rintro ⟨path, hMem, hCovers, hState⟩
      refine ⟨path, ?_, hCovers, hState⟩
      rwa [FinMap.mem_iff_isSome, ← hSame path hCovers, ← FinMap.mem_iff_isSome]
    · rintro ⟨path, hMem, hCovers, hState⟩
      refine ⟨path, ?_, hCovers, hState⟩
      rwa [FinMap.mem_iff_isSome, hSame path hCovers, ← FinMap.mem_iff_isSome]
  unfold Admits Datatree.Admits
  cases op with
  | create => exact not_congr hHolds
  | delete => exact hHolds
  | _ => exact Iff.rfl

theorem tableEntry_congr {leaves : List (GoString × Leaf)} {path : GoString}
    (hSame : content[path]? = content'[path]?) :
    tableEntry r op content leaves path = tableEntry r op content' leaves path := by
  unfold tableEntry
  rw [hSame]

/-- The table for a list of targets: success, the contents, and the failure. -/
structure Followed (r : Router) (op : Op) (targets : List Addressed) (before : Values)
    (outcome : Except Err Editor) : Prop where
  succeeds : (∃ after, outcome = .ok after) ↔ ∀ target ∈ targets, target.Admits r op before
  inside : ∀ after, outcome = .ok after → ∀ target ∈ targets, ∀ path : GoString,
    target.Covers path → after.proposed[path]? = tableEntry r op before target.leaves path
  outside : ∀ after, outcome = .ok after → ∀ path : GoString,
    (∀ target ∈ targets, ¬ target.Covers path) → after.proposed[path]? = before[path]?
  fails : ∀ err, outcome = .error err →
    ∃ target ∈ targets, ¬ target.Admits r op before ∧ err = refusal op target.root

/-- A target that the table refuses ends the walk. -/
theorem Followed.refused {targets : List Addressed} (hTarget : target ∈ targets)
    (hRefused : ¬ target.Admits r op before)
    (hOutcome : outcome = .error (refusal op target.root)) :
    Followed r op targets before outcome := by
  subst hOutcome
  refine ⟨⟨?_, ?_⟩, ?_, ?_, ?_⟩
  · rintro ⟨after, hAfter⟩
    cases hAfter
  · intro hAll
    exact absurd (hAll target hTarget) hRefused
  · intro after hAfter
    cases hAfter
  · intro after hAfter
    cases hAfter
  · intro err hErr
    cases hErr
    exact ⟨target, hTarget, hRefused, rfl⟩

/-- A target that the table lets through, before targets that have no leaf in common
with it. -/
theorem Followed.cons {rest : List Addressed} {next : Editor} (hAdmits : target.Admits r op before)
    (hInside : ∀ path : GoString, target.Covers path →
      next.proposed[path]? = tableEntry r op before target.leaves path)
    (hOutside : ∀ path : GoString, ¬ target.Covers path → next.proposed[path]? = before[path]?)
    (hDisjoint : ∀ other ∈ rest, Disjoint target other)
    (hRest : Followed r op rest next.proposed outcome) :
    Followed r op (target :: rest) before outcome := by
  have hKept : ∀ other ∈ rest, ∀ path : GoString, other.Covers path →
      next.proposed[path]? = before[path]? := by
    intro other hOther path hCovers
    exact hOutside path fun hTarget => hDisjoint other hOther path ⟨hTarget, hCovers⟩
  refine ⟨?_, ?_, ?_, ?_⟩
  · rw [hRest.succeeds, List.forall_mem_cons]
    constructor
    · intro hAll
      exact ⟨hAdmits, fun other hOther =>
        (admits_congr (hKept other hOther)).mp (hAll other hOther)⟩
    · rintro ⟨_, hAll⟩ other hOther
      exact (admits_congr (hKept other hOther)).mpr (hAll other hOther)
  · intro after hAfter other hOther path hCovers
    rcases List.mem_cons.mp hOther with rfl | hOther
    · rw [hRest.outside after hAfter path fun another hAnother hBoth =>
        hDisjoint another hAnother path ⟨hCovers, hBoth⟩]
      exact hInside path hCovers
    · rw [hRest.inside after hAfter other hOther path hCovers]
      exact tableEntry_congr (hKept other hOther path hCovers)
  · intro after hAfter path hNone
    rw [List.forall_mem_cons] at hNone
    rw [hRest.outside after hAfter path hNone.2]
    exact hOutside path hNone.1
  · intro err hErr
    obtain ⟨other, hOther, hRefused, hRefusal⟩ := hRest.fails err hErr
    refine ⟨other, List.mem_cons_of_mem _ hOther, ?_, hRefusal⟩
    rwa [← admits_congr (hKept other hOther)]

/-- Walking pairwise disjoint targets follows the table on each: a target sees what
the ones before it have left alone. -/
theorem walkAll_followed {base : GoString} {schema : List Node}
    (hSchema : childrenOf base = .ok schema) : ∀ (targets : List Addressed) (e : Editor),
    e.Sound r → (∀ target ∈ targets, target.Proper r op base schema) →
    targets.Pairwise Disjoint →
    Followed r op targets e.proposed
      (Editor.walkAll r (targets.map Addressed.document) base schema op e) := by
  intro targets
  induction targets with
  | nil =>
    intro e _ _ _
    refine ⟨by simp [Editor.walkAll], by simp, ?_, ?_⟩
    · intro after hAfter path _
      cases hAfter
      rfl
    · intro err hErr
      cases hErr
  | cons target rest ih =>
    intro e hSound hProper hDisjoint
    rw [List.pairwise_cons] at hDisjoint
    obtain ⟨hKnown, hPlain⟩ := hProper target (List.mem_cons_self ..)
    obtain ⟨hAdmitted, hRefused⟩ := Editor.walk_meets hSchema hSound hPlain hKnown
    rw [List.map_cons, Editor.walkAll]
    by_cases hAdmits : target.Admits r op e.proposed
    · obtain ⟨next, hWalk, hInside⟩ := hAdmitted hAdmits
      obtain ⟨hNext, hOutside⟩ :=
        Editor.walk_step hSchema hSound hKnown.named hKnown.addressed hWalk
      rw [hWalk]
      refine .cons hAdmits hInside hOutside hDisjoint.1 ?_
      exact ih next hNext (fun other hOther => hProper other (List.mem_cons_of_mem _ hOther))
        hDisjoint.2
    · rw [hRefused hAdmits]
      exact .refused (List.mem_cons_self ..) hAdmits rfl

/-- The proposal of a request without operation attributes, over pairwise disjoint
targets, follows the edit-config table: `merge` overrides the old leaves, `replace` and
`create` leave exactly the document's leaves next to the state, `delete` and `remove`
leave the state; `create` fails with `data-exists` on a subtree that holds
configuration, `delete` with `data-missing` on one that holds none, and nothing else
fails; other leaves stay. -/
theorem proposal_follows_edit_table {r : Router} {content : Values}
    {results : Std.ExtTreeMap GoString Result} (hRead : r.describeAll content = .ok results)
    {base : GoString} {schema : List Node} (hSchema : childrenOf base = .ok schema) (op : Op)
    (targets : List Addressed) (hProper : ∀ target ∈ targets, target.Proper r op base schema)
    (hDisjoint : targets.Pairwise Disjoint) :
    Followed r op targets content
      (propose r ⟨base, op, targets.map Addressed.document⟩ (editorOf results)) := by
  obtain ⟨hContent, hSound⟩ := editorOf_spec hRead
  have hWalk := walkAll_followed hSchema targets (editorOf results) hSound hProper hDisjoint
  rw [hContent] at hWalk
  rw [propose, hSchema]
  exact hWalk

/-- A new VLAN below the VLAN list. -/
def newVLAN : Addressed where
  document := .mk "vlan" [] [] [.mk "id" "10" [] [], .mk "name" "lab" [] []]
  node := ⟨"vlan", .list "id"⟩
  root := "vlans/vlan[id=10]"
  leaves := [("vlans/vlan[id=10]/id", .uint16 10), ("vlans/vlan[id=10]/name", .string "lab")]

theorem creation_of_newVLAN_follows_edit_table :
    ∃ results, defaultRouter.describeAll bareContent = .ok results ∧
      Followed defaultRouter .create [newVLAN] bareContent
        (propose defaultRouter ⟨"vlans", .create, [newVLAN.document]⟩ (editorOf results)) := by
  obtain ⟨results, hRead⟩ := exists_eq_ok_of_isOk
    (show (defaultRouter.describeAll bareContent).isOk = true by decide +kernel)
  obtain ⟨schema, hSchema⟩ := exists_eq_ok_of_isOk
    (show (childrenOf "vlans").isOk = true by decide +kernel)
  have hNode : (childrenOf "vlans").toOption.bind (nodeNamed · newVLAN.document.name) =
      some newVLAN.node := by decide +kernel
  have hLeaves : (childrenOf "vlans").toOption.map
      (documentLeaves defaultRouter newVLAN.document "vlans") = some (.ok newVLAN.leaves) := by
    decide +kernel
  rw [hSchema] at hNode hLeaves
  refine ⟨results, hRead, proposal_follows_edit_table hRead hSchema .create [newVLAN] ?_ ?_⟩
  · intro target hTarget
    rw [List.mem_singleton] at hTarget
    subst hTarget
    exact ⟨⟨hNode, by decide +kernel, nofun, Or.inr (Or.inr (Option.some.inj hLeaves))⟩,
      by decide +kernel⟩
  · exact List.pairwise_singleton _ _

end Addressed

end Datatree
end TriadSim
