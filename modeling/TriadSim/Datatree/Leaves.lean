import Mathlib.Data.List.ReduceOption
import TriadSim.Datatree.Frame
import TriadSim.Datatree.Read
import TriadSim.Library.Listing

/-!
# The leaves of a read tree

What a read answers, as a set of leaves.  When every stored path follows the schema, the tree
below a node has exactly the stored leaves below it that the request asks for, each of them once.
The schema is walked down level by level; the leaves below a node are those below its children,
and those of a list are those of its entries.  The main result is `buildChildren_spec`.
-/

namespace TriadSim
namespace Datatree

open Go Library Router
open scoped List

/-! ## Leaves -/

mutual

/-- The leaves of a tree in document order, with their paths. -/
def DataNode.leaves : DataNode → List (GoString × Leaf)
  | .leaf path _ _ value => [(path, value)]
  | .container _ _ children => leavesOfAll children
  | .list _ _ _ entries => leavesOfEntries entries

def leavesOfAll : List DataNode → List (GoString × Leaf)
  | [] => []
  | node :: rest => node.leaves ++ leavesOfAll rest

def leavesOfEntries : List ListNode → List (GoString × Leaf)
  | [] => []
  | .mk _ _ children :: rest => leavesOfAll children ++ leavesOfEntries rest

end

def ListNode.leaves : ListNode → List (GoString × Leaf)
  | .mk _ _ children => leavesOfAll children

theorem leavesOfAll_eq_flatMap (nodes : List DataNode) :
    leavesOfAll nodes = nodes.flatMap DataNode.leaves := by
  induction nodes with
  | nil => rfl
  | cons node rest ih => rw [leavesOfAll, ih, List.flatMap_cons]

theorem leavesOfEntries_eq_flatMap (entries : List ListNode) :
    leavesOfEntries entries = entries.flatMap ListNode.leaves := by
  induction entries with
  | nil => rfl
  | cons entry rest ih =>
    obtain ⟨path, keyValue, children⟩ := entry
    rw [leavesOfEntries, ih, List.flatMap_cons]
    rfl

theorem leavesOfAll_perm {nodes others : List DataNode} (hPerm : nodes ~ others) :
    leavesOfAll nodes ~ leavesOfAll others := by
  rw [leavesOfAll_eq_flatMap, leavesOfAll_eq_flatMap]
  exact hPerm.flatMap_right DataNode.leaves

theorem leavesOfAll_reduceOption (outputs : List (Option DataNode)) :
    leavesOfAll outputs.reduceOption =
      outputs.flatMap fun output => leavesOfAll output.toList := by
  induction outputs with
  | nil => rfl
  | cons output rest ih =>
    cases output with
    | none => rw [List.reduceOption_cons_of_none, ih]; rfl
    | some node =>
      rw [List.reduceOption_cons_of_some, leavesOfAll, ih, List.flatMap_cons]
      simp [leavesOfAll]

/-- What a datastore shows at a path to a request for some content. -/
def shown (values : Std.ExtTreeMap GoString Result) (content : Content) (path : GoString) :
    Option Leaf :=
  match values[path]? with
  | none => none
  | some result => if selected result content then some result.value else none

theorem leafNode_eq_map (values : Std.ExtTreeMap GoString Result) (content : Content)
    (path name : GoString) (kind : LeafKind) :
    leafNode values content path name kind =
      (shown values content path).map (DataNode.leaf path name kind) := by
  unfold leafNode shown
  cases values[path]? with
  | none => rfl
  | some result =>
    dsimp only
    split <;> rfl

variable {nodes : List SchemaNode} {path : GoString} {child : SchemaNode} {below : List SchemaNode}
    {segment : Segment} {segments : List Segment} {lead : GoString} {base : List Segment}

theorem mem_of_isSome_shown {values : Std.ExtTreeMap GoString Result} {content : Content}
    (hShown : (shown values content path).isSome = true) : path ∈ values := by
  rw [FinMap.mem_iff_isSome]
  unfold shown at hShown
  cases hValue : values[path]? with
  | none =>
    rw [hValue] at hShown
    cases hShown
  | some result => rfl

/-! ## The schema -/

/-- The key of a list is a leaf of its entries. -/
def keyedNode (child : SchemaNode) : Bool :=
  match child.node.kind with
  | .list key =>
    (childNamed child.children key).any fun node =>
      match node.node.kind with
      | .leaf _ => true
      | _ => false
  | _ => true

theorem keyLeaf_of_keyedNode (hKeyed : keyedNode child = true) {key : GoString}
    (hKind : child.node.kind = .list key) :
    ∃ keyNode kind, childNamed child.children key = some keyNode ∧
      keyNode.node.kind = .leaf kind := by
  unfold keyedNode at hKeyed
  rw [hKind] at hKeyed
  obtain ⟨keyNode, hKeyNode, hLeaf⟩ := (Option.any_eq_true _ _).mp hKeyed
  cases hNode : keyNode.node.kind with
  | leaf kind => exact ⟨keyNode, kind, hKeyNode, hNode⟩
  | container | list other => simp [hNode] at hLeaf

/-- Below every node, down to a depth that covers the tree, the names are distinct and the
lists have their keys. -/
def treeKeyed : Nat → List SchemaNode → Bool
  | 0, nodes => nodes.isEmpty
  | depth + 1, nodes =>
    decide (nodes.map fun child => child.node.name).Nodup &&
      nodes.all fun child => keyedNode child && treeKeyed depth child.children

theorem treeKeyed_deviceSchema : treeKeyed 5 deviceSchema = true := by
  decide +kernel

theorem deviceLevels_eq : deviceLevels = 6 := by
  decide +kernel

/-- What the schema says about the children of one node. -/
structure Keyed (depth : Nat) (nodes : List SchemaNode) : Prop where
  nodup : (nodes.map fun child => child.node.name).Nodup
  keyed : ∀ child ∈ nodes, keyedNode child = true
  below : ∀ child ∈ nodes, ∃ less < depth, treeKeyed less child.children = true

theorem keyed_of_treeKeyed {depth : Nat} (hTree : treeKeyed depth nodes = true) :
    Keyed depth nodes := by
  cases depth with
  | zero =>
    rw [treeKeyed, List.isEmpty_iff] at hTree
    subst hTree
    exact ⟨List.nodup_nil, by simp, by simp⟩
  | succ depth =>
    simp only [treeKeyed, Bool.and_eq_true, decide_eq_true_eq, List.all_eq_true] at hTree
    exact ⟨hTree.1, fun child hChild => (hTree.2 child hChild).1,
      fun child hChild => ⟨depth, Nat.lt_succ_self depth, (hTree.2 child hChild).2⟩⟩

theorem childNamed_of_mem (hNodup : (nodes.map fun child => child.node.name).Nodup)
    (hChild : child ∈ nodes) : childNamed nodes child.node.name = some child := by
  induction nodes with
  | nil => cases hChild
  | cons first rest ih =>
    rw [List.map_cons, List.nodup_cons] at hNodup
    unfold childNamed
    rcases List.mem_cons.mp hChild with rfl | hRest
    · simp
    · have hOther : first.node.name ≠ child.node.name := fun hSame =>
        hNodup.1 (hSame ▸ List.mem_map_of_mem (f := fun child => child.node.name) hRest)
      rw [List.find?_cons_of_neg (by simpa using hOther)]
      exact ih hNodup.2 hRest

theorem nodeNamed_map (nodes : List SchemaNode) (name : GoString) :
    nodeNamed (nodes.map SchemaNode.node) name = (childNamed nodes name).map SchemaNode.node := by
  rw [nodeNamed, childNamed, List.find?_map]
  rfl

/-- One round of the loop of `Children`. -/
theorem descend_cons_eq_ok_iff {rest : List Segment} :
    descend path nodes (segment :: rest) = .ok below ↔
      ∃ child, childNamed nodes segment.name = some child ∧
        checkPredicate segment child.node.kind = .ok () ∧
        (∀ kind, child.node.kind ≠ .leaf kind) ∧ descend path child.children rest = .ok below := by
  rw [descend]
  cases hChild : childNamed nodes segment.name with
  | none => simp
  | some child =>
    cases hPredicate : checkPredicate segment child.node.kind with
    | error err => simp [hPredicate]
    | ok _ =>
      cases hKind : child.node.kind with
      | leaf kind =>
        rw [hKind] at hPredicate
        by_cases hEnd : rest = [] <;> simp [hKind, hPredicate, hEnd]
      | container | list key =>
        rw [hKind] at hPredicate
        simp [hKind, hPredicate]

/-- The loop of `Children` in two parts. -/
theorem descend_append_eq_ok_iff {result : List SchemaNode} {first second : List Segment} :
    descend path nodes (first ++ second) = .ok result ↔
      ∃ below, descend path nodes first = .ok below ∧ descend path below second = .ok result := by
  induction first generalizing nodes with
  | nil => simp [descend]
  | cons segment rest ih =>
    rw [List.cons_append, descend_cons_eq_ok_iff]
    constructor
    · rintro ⟨child, hChild, hPredicate, hInner, hRest⟩
      obtain ⟨below, hFirst, hSecond⟩ := ih.mp hRest
      exact ⟨below, descend_cons_eq_ok_iff.mpr ⟨child, hChild, hPredicate, hInner, hFirst⟩,
        hSecond⟩
    · rintro ⟨below, hFirst, hSecond⟩
      obtain ⟨child, hChild, hPredicate, hInner, hRest⟩ := descend_cons_eq_ok_iff.mp hFirst
      exact ⟨child, hChild, hPredicate, hInner, ih.mpr ⟨below, hRest, hSecond⟩⟩

/-- The text in the error messages does not decide whether a path leads somewhere. -/
theorem descend_text (hDescend : descend path nodes segments = .ok below) (other : GoString) :
    descend other nodes segments = .ok below := by
  induction segments generalizing nodes with
  | nil => exact hDescend
  | cons segment rest ih =>
    obtain ⟨child, hChild, hPredicate, hInner, hRest⟩ := descend_cons_eq_ok_iff.mp hDescend
    exact descend_cons_eq_ok_iff.mpr ⟨child, hChild, hPredicate, hInner, ih hRest⟩

/-- The schema nodes below the node of a path. -/
def SchemaBelow (base : List Segment) (nodes : List SchemaNode) : Prop :=
  descend [] deviceSchema base = .ok nodes

theorem childrenOf_of_schemaBelow (hBase : baseSegments lead = .ok base)
    (hBelow : SchemaBelow base nodes) : childrenOf lead = .ok (nodes.map SchemaNode.node) := by
  rcases baseSegments_eq_ok hBase with ⟨rfl, rfl⟩ | ⟨hPath, hParse⟩
  · cases hBelow
    rfl
  · rw [childrenOf, if_neg hPath, hParse]
    show (descend lead deviceSchema base >>= fun found => .ok (found.map SchemaNode.node)) = _
    rw [descend_text hBelow lead]
    rfl

theorem exists_schemaBelow_of_childrenOf {schema : List Node} (hBase : baseSegments lead = .ok base)
    (hChildren : childrenOf lead = .ok schema) :
    ∃ nodes, SchemaBelow base nodes ∧ schema = nodes.map SchemaNode.node := by
  rcases baseSegments_eq_ok hBase with ⟨rfl, rfl⟩ | ⟨hPath, hParse⟩
  · cases hChildren
    exact ⟨deviceSchema, rfl, rfl⟩
  · rw [childrenOf, if_neg hPath] at hChildren
    obtain ⟨segments, hSegments, hChildren⟩ := bind_eq_ok_iff.mp hChildren
    cases hSegments.symm.trans hParse
    obtain ⟨nodes, hDescend, hNodes⟩ := bind_eq_ok_iff.mp hChildren
    cases hNodes
    exact ⟨nodes, descend_text hDescend [], rfl⟩

/-- One more segment, to a container or an entry of a list. -/
theorem SchemaBelow.to_child (hBelow : SchemaBelow base nodes)
    (hChild : childNamed nodes segment.name = some child)
    (hPredicate : checkPredicate segment child.node.kind = .ok ())
    (hInner : ∀ kind, child.node.kind ≠ .leaf kind) :
    SchemaBelow (base ++ [segment]) child.children :=
  descend_append_eq_ok_iff.mpr
    ⟨nodes, hBelow, descend_cons_eq_ok_iff.mpr ⟨child, hChild, hPredicate, hInner, rfl⟩⟩

/-- The predicates on the way to a node fit the schema. -/
theorem SchemaBelow.checkPredicate {rest : List Segment}
    (hDeeper : SchemaBelow (base ++ segment :: rest) below) (hBelow : SchemaBelow base nodes)
    (hChild : childNamed nodes segment.name = some child) :
    Router.checkPredicate segment child.node.kind = .ok () := by
  obtain ⟨middle, hMiddle, hRest⟩ := descend_append_eq_ok_iff.mp hDeeper
  cases hBelow.symm.trans hMiddle
  obtain ⟨inner, hInner, hHere, _⟩ := descend_cons_eq_ok_iff.mp hRest
  cases hChild.symm.trans hInner
  exact hHere

/-- A list of segments leads from some schema nodes down to a leaf. -/
def LeafBelow : List SchemaNode → List Segment → Prop
  | _, [] => False
  | nodes, segment :: rest =>
    ∃ child, childNamed nodes segment.name = some child ∧
      checkPredicate segment child.node.kind = .ok () ∧
      match child.node.kind with
      | .leaf _ => rest = []
      | _ => LeafBelow child.children rest

/-- The path follows the schema down to a leaf: only list entries have predicates. -/
def OnSchema (path : GoString) : Prop :=
  ∃ segments, parse path = .ok segments ∧ LeafBelow deviceSchema segments

/-- The check of `LeafBelow`. -/
def leafBelow : List SchemaNode → List Segment → Bool
  | _, [] => false
  | nodes, segment :: rest =>
    (childNamed nodes segment.name).any fun child =>
      decide (checkPredicate segment child.node.kind = .ok ()) &&
        match child.node.kind with
        | .leaf _ => rest.isEmpty
        | _ => leafBelow child.children rest

theorem leafBelow_iff :
    leafBelow nodes segments = true ↔ LeafBelow nodes segments := by
  induction segments generalizing nodes with
  | nil => simp [leafBelow, LeafBelow]
  | cons segment rest ih =>
    rw [leafBelow, LeafBelow, Option.any_eq_true]
    refine exists_congr fun child => and_congr_right fun _ => ?_
    rw [Bool.and_eq_true, decide_eq_true_eq]
    refine and_congr_right fun _ => ?_
    cases child.node.kind with
    | leaf kind => exact List.isEmpty_iff
    | container | list key => exact ih

instance (path : GoString) : Decidable (OnSchema path) :=
  match hParse : parse path with
  | .error err => .isFalse fun ⟨segments, hSegments, _⟩ => by
      rw [hParse] at hSegments
      cases hSegments
  | .ok segments =>
    decidable_of_iff (leafBelow deviceSchema segments = true) <| by
      rw [leafBelow_iff]
      constructor
      · exact fun hLeaf => ⟨segments, hParse, hLeaf⟩
      · rintro ⟨others, hOthers, hLeaf⟩
        cases hParse.symm.trans hOthers
        exact hLeaf

theorem leafBelow_of_append {first second : List Segment}
    (hDescend : descend path nodes first = .ok below) (hLeaf : LeafBelow nodes (first ++ second)) :
    LeafBelow below second := by
  induction first generalizing nodes with
  | nil =>
    cases hDescend
    exact hLeaf
  | cons segment rest ih =>
    obtain ⟨child, hChild, _, hInner, hRest⟩ := descend_cons_eq_ok_iff.mp hDescend
    obtain ⟨other, hOther, _, hBelow⟩ := hLeaf
    cases hChild.symm.trans hOther
    cases hKind : child.node.kind with
    | leaf kind => exact absurd hKind (hInner kind)
    | container | list key =>
      rw [hKind] at hBelow
      exact ih hRest hBelow

/-! ## Regions -/

/-- The paths of the leaves below a node, given by its segments and its schema nodes. -/
def Under (base : List Segment) (nodes : List SchemaNode) (path : GoString) : Prop :=
  ∃ rest, parse path = .ok (base ++ rest) ∧ LeafBelow nodes rest

/-- The paths of the leaves at or below one child of a node. -/
def UnderChild (base : List Segment) (child : SchemaNode) (path : GoString) : Prop :=
  ∃ segment rest, parse path = .ok (base ++ segment :: rest) ∧ segment.name = child.node.name ∧
    checkPredicate segment child.node.kind = .ok () ∧
    match child.node.kind with
    | .leaf _ => rest = []
    | _ => LeafBelow child.children rest

theorem under_iff_exists_child (hNodup : (nodes.map fun child => child.node.name).Nodup)
    (path : GoString) :
    Under base nodes path ↔ ∃ child ∈ nodes, UnderChild base child path := by
  constructor
  · rintro ⟨rest, hParse, hLeaf⟩
    cases rest with
    | nil => exact absurd hLeaf (by simp [LeafBelow])
    | cons segment rest =>
      obtain ⟨child, hChild, hPredicate, hBelow⟩ := hLeaf
      obtain ⟨hMem, hName⟩ := childNamed_eq_some hChild
      exact ⟨child, hMem, segment, rest, hParse, hName.symm, hPredicate, hBelow⟩
  · rintro ⟨child, hMem, segment, rest, hParse, hName, hPredicate, hBelow⟩
    have hChild : childNamed nodes segment.name = some child := by
      rw [hName]
      exact childNamed_of_mem hNodup hMem
    exact ⟨segment :: rest, hParse, child, hChild, hPredicate, hBelow⟩

/-- The leaves below different children are different. -/
theorem not_underChild_of_name_ne {other : SchemaNode} (hNames : child.node.name ≠ other.node.name)
    (hUnder : UnderChild base child path) : ¬ UnderChild base other path := by
  rintro ⟨second, behind, hSecond, hOther, _⟩
  obtain ⟨first, rest, hFirst, hName, _⟩ := hUnder
  have hSame := List.append_cancel_left (Except.ok.inj (hFirst.symm.trans hSecond))
  rw [List.cons.injEq] at hSame
  exact hNames (by rw [← hName, hSame.1, hOther])

/-! ## Segments -/

theorem checkPredicate_inner_iff {kind : NodeKind} (hKind : ∀ key, kind ≠ .list key) :
    checkPredicate segment kind = .ok () ↔ segment.key = [] := by
  cases kind with
  | list key => exact absurd rfl (hKind key)
  | container | leaf kind =>
    by_cases hKey : segment.key = [] <;> simp [checkPredicate, hKey]

theorem checkPredicate_list_iff {key : GoString} :
    checkPredicate segment (.list key) = .ok () ↔ segment.key ≠ [] ∧ segment.key = key := by
  by_cases hNone : segment.key = []
  · simp [checkPredicate, hNone]
  · by_cases hKey : segment.key = key <;> simp [checkPredicate, hNone, hKey]

/-- The segment of a node that is no list. -/
def bareSegment (name : GoString) : Segment :=
  ⟨name, [], []⟩

@[simp] theorem text_bareSegment (name : GoString) : (bareSegment name).text = name := by
  simp [bareSegment, Segment.text]

theorem wellFormed_bareSegment {name : GoString} (hPlain : plainName name = true) :
    (bareSegment name).WellFormed ∧ 47 ∉ (bareSegment name).text := by
  obtain ⟨hName, hSlash, hOpen, _⟩ := plainName_iff hPlain
  rw [text_bareSegment]
  exact ⟨⟨hName, Or.inl ⟨rfl, rfl, hOpen⟩⟩, hSlash⟩

theorem eq_bareSegment_of_mem_parse (hParse : parse path = .ok segments)
    (hMem : segment ∈ segments) (hKey : segment.key = []) : segment = bareSegment segment.name := by
  obtain ⟨name, key, value⟩ := segment
  rcases (wellFormed_of_mem_parse hParse hMem).1.2 with ⟨_, hValue, _⟩ | ⟨hSome, _⟩
  · rw [bareSegment, show key = [] from hKey, show value = [] from hValue]
  · exact absurd hKey hSome

theorem baseSegments_joinPath (hBase : baseSegments lead = .ok base)
    (hWellFormed : segment.WellFormed) (hSlash : 47 ∉ segment.text) :
    baseSegments (joinPath lead segment.text) = .ok (base ++ [segment]) :=
  baseSegments_of_parse_eq_ok (parse_joinPath hBase hWellFormed hSlash)

/-! ## The region of each kind of node -/

section Regions

variable {lead : GoString} {base : List Segment} {child : SchemaNode}

theorem underChild_leaf_iff {kind : LeafKind} (hBase : baseSegments lead = .ok base)
    (hPlain : plainName child.node.name = true) (hKind : child.node.kind = .leaf kind)
    (path : GoString) : UnderChild base child path ↔ path = joinPath lead child.node.name := by
  obtain ⟨hWellFormed, hSlash⟩ := wellFormed_bareSegment hPlain
  have hHere := parse_joinPath hBase hWellFormed hSlash
  rw [text_bareSegment] at hHere
  have hInner : ∀ key, child.node.kind ≠ .list key := by simp [hKind]
  unfold UnderChild
  rw [hKind] at hInner ⊢
  constructor
  · rintro ⟨segment, rest, hParse, hName, hPredicate, rfl⟩
    have hKey := (checkPredicate_inner_iff hInner).mp hPredicate
    rw [eq_bareSegment_of_mem_parse hParse (by simp) hKey, hName] at hParse
    exact parse_injective hParse hHere
  · rintro rfl
    exact ⟨bareSegment child.node.name, [], hHere, rfl,
      (checkPredicate_inner_iff hInner).mpr rfl, rfl⟩

theorem underChild_container_iff (hKind : child.node.kind = .container) (path : GoString) :
    UnderChild base child path ↔
      Under (base ++ [bareSegment child.node.name]) child.children path := by
  have hInner : ∀ key, child.node.kind ≠ .list key := by simp [hKind]
  unfold UnderChild Under
  rw [hKind] at hInner ⊢
  constructor
  · rintro ⟨segment, rest, hParse, hName, hPredicate, hLeaf⟩
    have hKey := (checkPredicate_inner_iff hInner).mp hPredicate
    rw [eq_bareSegment_of_mem_parse hParse (by simp) hKey, hName] at hParse
    exact ⟨rest, by simpa using hParse, hLeaf⟩
  · rintro ⟨rest, hParse, hLeaf⟩
    exact ⟨bareSegment child.node.name, rest, by simpa using hParse, rfl,
      (checkPredicate_inner_iff hInner).mpr rfl, hLeaf⟩

theorem underChild_list_iff {key : GoString} (hKey : key ≠ [])
    (hKind : child.node.kind = .list key) (path : GoString) :
    UnderChild base child path ↔
      ∃ value, Under (base ++ [⟨child.node.name, key, value⟩]) child.children path := by
  unfold UnderChild Under
  rw [hKind]
  constructor
  · rintro ⟨⟨name, found, value⟩, rest, hParse, rfl, hPredicate, hLeaf⟩
    obtain ⟨_, rfl⟩ := checkPredicate_list_iff.mp hPredicate
    exact ⟨value, rest, by simpa using hParse, hLeaf⟩
  · rintro ⟨value, rest, hParse, hLeaf⟩
    exact ⟨⟨child.node.name, key, value⟩, rest, by simpa using hParse, rfl,
      checkPredicate_list_iff.mpr ⟨hKey, rfl⟩, hLeaf⟩

/-- Entries with different keys have different leaves. -/
theorem value_eq_of_under {name key first second : GoString} {nodes : List SchemaNode}
    {path : GoString} (hFirst : Under (base ++ [⟨name, key, first⟩]) nodes path)
    (hSecond : Under (base ++ [⟨name, key, second⟩]) nodes path) : first = second := by
  obtain ⟨rest, hParse, _⟩ := hFirst
  obtain ⟨behind, hOther, _⟩ := hSecond
  have hSame := Except.ok.inj (hParse.symm.trans hOther)
  rw [List.append_assoc, List.append_assoc] at hSame
  have hTail := List.append_cancel_left hSame
  simp only [List.singleton_append, List.cons.injEq, Segment.mk.injEq, true_and] at hTail
  exact hTail.1

end Regions

/-! ## The entries of a list -/

section Instances

variable {values : Std.ExtTreeMap GoString Result} {lead : GoString} {base : List Segment}

theorem depthOf_of_baseSegments (hBase : baseSegments lead = .ok base) :
    depthOf lead = some base.length := by
  rcases baseSegments_eq_ok hBase with ⟨rfl, rfl⟩ | ⟨hPath, hParse⟩
  · rfl
  · rw [depthOf, if_neg hPath, hParse]

/-- The textual test for a path below a node. -/
theorem hasPrefix_needle_iff (hBase : baseSegments lead = .ok base) {path : GoString}
    {segments : List Segment} (hParse : parse path = .ok segments) :
    hasPrefix path (if lead = [] then [] else lead ++ [47]) = true ↔
      ∃ rest, rest ≠ [] ∧ segments = base ++ rest := by
  rcases baseSegments_eq_ok hBase with ⟨rfl, rfl⟩ | ⟨hPath, hLead⟩
  · exact ⟨fun _ => ⟨segments, ne_nil_of_parse_eq_ok hParse, rfl⟩, fun _ => rfl⟩
  · rw [if_neg hPath]
    exact hasPrefix_append_slash_iff hParse hLead

theorem instanceAt_eq_some_iff (hBase : baseSegments lead = .ok base) {path name : GoString}
    {segments : List Segment} (hParse : parse path = .ok segments) {entry : ListEntry} :
    instanceAt lead name base.length path = some entry ↔
      ∃ segment rest, segments = base ++ segment :: rest ∧ segment.name = name ∧
        segment.key ≠ [] ∧ entry = ⟨joinPath lead segment.text, segment.value⟩ := by
  unfold instanceAt
  by_cases hPrefix : hasPrefix path (if lead = [] then [] else lead ++ [47]) = true
  · obtain ⟨rest, hRest, rfl⟩ := (hasPrefix_needle_iff hBase hParse).mp hPrefix
    obtain ⟨segment, behind, rfl⟩ := List.exists_cons_of_ne_nil hRest
    have hAt : (base ++ segment :: behind)[base.length]? = some segment := by simp
    simp only [hPrefix, hParse, hAt, Bool.not_true, Bool.false_eq_true, if_false]
    constructor
    · intro hEntry
      split at hEntry
      · cases hEntry
      · next hFits =>
        simp only [Bool.or_eq_true, decide_eq_true_eq, not_or, ne_eq, not_not] at hFits
        cases hEntry
        exact ⟨segment, behind, rfl, hFits.1, hFits.2, rfl⟩
    · rintro ⟨other, tail, hSame, hName, hKey, rfl⟩
      have hTail := List.append_cancel_left hSame
      rw [List.cons.injEq] at hTail
      obtain ⟨rfl, rfl⟩ := hTail
      rw [if_neg (by simp [hName, hKey])]
  · have hOutside : ¬ ∃ rest, rest ≠ [] ∧ segments = base ++ rest :=
      fun hInside => hPrefix ((hasPrefix_needle_iff hBase hParse).mpr hInside)
    simp only [hPrefix, Bool.not_false, if_true]
    constructor
    · intro hEntry
      cases hEntry
    · rintro ⟨segment, rest, rfl, _⟩
      exact absurd ⟨segment :: rest, List.cons_ne_nil _ _, rfl⟩ hOutside

/-- The instances of a list are what the stored paths name. -/
theorem mem_instancesOf_iff (hBase : baseSegments lead = .ok base)
    (hParses : ∀ path ∈ values, ∃ segments, parse path = .ok segments) {name : GoString}
    {entry : ListEntry} :
    entry ∈ instancesOf values lead name ↔
      ∃ path ∈ values, ∃ segment rest, parse path = .ok (base ++ segment :: rest) ∧
        segment.name = name ∧ segment.key ≠ [] ∧
        entry = ⟨joinPath lead segment.text, segment.value⟩ := by
  unfold instancesOf
  rw [depthOf_of_baseSegments hBase]
  simp only [List.mem_dedup, List.mem_filterMap, Std.ExtTreeMap.mem_keys]
  constructor
  · rintro ⟨path, hPath, hEntry⟩
    obtain ⟨segments, hParse⟩ := hParses path hPath
    obtain ⟨segment, rest, rfl, hName, hKey, hSame⟩ :=
      (instanceAt_eq_some_iff hBase hParse).mp hEntry
    exact ⟨path, hPath, segment, rest, hParse, hName, hKey, hSame⟩
  · rintro ⟨path, hPath, segment, rest, hParse, hName, hKey, hSame⟩
    exact ⟨path, hPath, (instanceAt_eq_some_iff hBase hParse).mpr
      ⟨segment, rest, rfl, hName, hKey, hSame⟩⟩

theorem nodup_instancesOf (name : GoString) : (instancesOf values lead name).Nodup := by
  unfold instancesOf
  split
  · exact List.nodup_nil
  · exact List.nodup_dedup _

end Instances

/-! ## What is built -/

section Build

variable {values : Std.ExtTreeMap GoString Result} {content : Content}

/-- One built entry of a list: its key, and the leaves below it. -/
structure EntrySpec (values : Std.ExtTreeMap GoString Result) (content : Content)
    (base : List Segment) (child : SchemaNode) (key : GoString) (entry : ListEntry)
    (built : ListNode) : Prop where
  keyValue : built.keyValue = entry.key
  lists : Lists (shown values content)
    (Under (base ++ [⟨child.node.name, key, entry.key⟩]) child.children) built.leaves

/-- All built entries of a list: none that holds a leaf is missing. -/
structure EntriesSpec (values : Std.ExtTreeMap GoString Result) (content : Content)
    (base : List Segment) (child : SchemaNode) (key : GoString) (instances : List ListEntry)
    (built : List ListNode) : Prop where
  each : List.Forall₂ (EntrySpec values content base child key) instances built
  nodup : (instances.map ListEntry.key).Nodup
  covers : ∀ path ∈ values, ∀ value,
    Under (base ++ [⟨child.node.name, key, value⟩]) child.children path →
      ∃ entry ∈ instances, entry.key = value

/-- What is built for one child of a node. -/
structure ChildSpec (values : Std.ExtTreeMap GoString Result) (content : Content)
    (lead : GoString) (base : List Segment) (child : SchemaNode) (output : Option DataNode) :
    Prop where
  name : ∀ node ∈ output, node.name = child.node.name
  lists : Lists (shown values content) (UnderChild base child) (leavesOfAll output.toList)
  leaf : ∀ kind, child.node.kind = .leaf kind →
    output = leafNode values content (joinPath lead child.node.name) child.node.name kind
  container : child.node.kind = .container → ∃ path inner,
    output = some (.container path child.node.name inner)
  list : ∀ key, child.node.kind = .list key → ∃ path entries instances,
    output = some (.list path child.node.name key entries) ∧
      EntriesSpec values content base child key instances entries

/-- What is built below a node: one output for each of its schema nodes. -/
def BuildSpec (values : Std.ExtTreeMap GoString Result) (content : Content)
    (build : GoString → Except Err (List DataNode)) (lead : GoString) (base : List Segment)
    (nodes : List SchemaNode) : Prop :=
  ∃ outputs, build lead = .ok outputs.reduceOption ∧
    List.Forall₂ (ChildSpec values content lead base) nodes outputs

theorem reduceOption_cons {α : Type} (output : Option α) (rest : List (Option α)) :
    (output :: rest).reduceOption = output.toList ++ rest.reduceOption := by
  cases output with
  | none => rw [List.reduceOption_cons_of_none]; rfl
  | some value => rw [List.reduceOption_cons_of_some]; rfl

variable {lead : GoString} {base : List Segment}

variable {nodes : List SchemaNode} {outputs : List (Option DataNode)} {name : GoString}
    {child : SchemaNode} {build : GoString → Except Err (List DataNode)} {key : GoString}
    {entry : ListEntry}

/-- The outputs for the children list the leaves below the node. -/
theorem lists_reduceOption
    (hOutputs : List.Forall₂ (ChildSpec values content lead base) nodes outputs)
    (hNodup : (nodes.map fun child => child.node.name).Nodup) :
    Lists (shown values content) (Under base nodes) (leavesOfAll outputs.reduceOption) := by
  rw [leavesOfAll_reduceOption]
  have hDisjoint : nodes.Pairwise fun first second =>
      ∀ path, UnderChild base first path → ¬ UnderChild base second path := by
    refine (List.pairwise_map.mp hNodup).imp ?_
    intro first second hNames path hUnder
    exact not_underChild_of_name_ne hNames hUnder
  refine (Lists.flatMap (hOutputs.imp fun _ _ hSpec => hSpec.lists) hDisjoint).congr ?_
  intro path _
  exact (under_iff_exists_child hNodup path).symm

theorem filter_name_eq_nil
    (hOutputs : List.Forall₂ (ChildSpec values content lead base) nodes outputs)
    (hName : name ∉ nodes.map fun child => child.node.name) :
    outputs.reduceOption.filter (fun node => node.name = name) = [] := by
  rw [List.filter_eq_nil_iff]
  intro node hNode
  obtain ⟨child, hChild, hSpec⟩ :=
    exists_of_mem_right hOutputs (List.reduceOption_mem_iff.mp hNode)
  have hSame := hSpec.name node rfl
  simp only [decide_eq_true_eq]
  intro hFound
  exact hName (List.mem_map.mpr ⟨child, hChild, hSame.symm.trans hFound⟩)

/-- Only the output for the child of a name has that name. -/
theorem filter_name_eq_toList
    (hOutputs : List.Forall₂ (ChildSpec values content lead base) nodes outputs)
    (hNodup : (nodes.map fun child => child.node.name).Nodup)
    (hChild : childNamed nodes name = some child) :
    ∃ output, ChildSpec values content lead base child output ∧
      outputs.reduceOption.filter (fun node => node.name = name) = output.toList := by
  induction hOutputs with
  | nil => cases hChild
  | @cons first output rest others hFirst hRest ih =>
    rw [List.map_cons, List.nodup_cons] at hNodup
    rw [reduceOption_cons, List.filter_append]
    by_cases hName : first.node.name = name
    · have hFound : childNamed (first :: rest) name = some first := by
        unfold childNamed
        rw [List.find?_cons_of_pos (by simpa using hName)]
      cases hFound.symm.trans hChild
      refine ⟨output, hFirst, ?_⟩
      rw [filter_name_eq_nil hRest (hName ▸ hNodup.1), List.append_nil, List.filter_eq_self]
      intro node hNode
      simpa [hName] using hFirst.name node (by simpa using hNode)
    · have hFound : childNamed rest name = some child := by
        unfold childNamed at hChild
        rwa [List.find?_cons_of_neg (by simpa using hName)] at hChild
      obtain ⟨found, hSpec, hFilter⟩ := ih hNodup.2 hFound
      have hHead : output.toList.filter (fun node => node.name = name) = [] := by
        rw [List.filter_eq_nil_iff]
        intro node hNode
        have hSame := hFirst.name node (by simpa using hNode)
        simpa [hSame] using hName
      exact ⟨found, hSpec, by rw [hHead, hFilter, List.nil_append]⟩

/-- An entry has the leaves of what is built below it; the key only comes first. -/
theorem buildEntry_spec {keyNode : SchemaNode}
    (hNodup : (child.children.map fun node => node.node.name).Nodup)
    (hKeyNode : childNamed child.children key = some keyNode) {kind : LeafKind}
    (hKind : keyNode.node.kind = .leaf kind)
    (hBuild : BuildSpec values content build entry.path
      (base ++ [⟨child.node.name, key, entry.key⟩]) child.children) :
    ∃ built, buildEntry values content build key keyNode.node.kind entry = .ok built ∧
      EntrySpec values content base child key entry built := by
  obtain ⟨outputs, hInner, hOutputs⟩ := hBuild
  obtain ⟨output, hSpec, hFilter⟩ := filter_name_eq_toList hOutputs hNodup hKeyNode
  have hName : keyNode.node.name = key := (childNamed_eq_some hKeyNode).2
  have hLeaf := hSpec.leaf kind hKind
  rw [hName] at hLeaf
  rw [hKind]
  refine ⟨_, by rw [buildEntry, hInner]; rfl, rfl, ?_⟩
  refine (lists_reduceOption hOutputs hNodup).perm (leavesOfAll_perm ?_)
  have hSplit := List.filter_append_perm (fun node : DataNode => decide (node.name = key))
    outputs.reduceOption
  rw [hFilter, hLeaf] at hSplit
  simpa [Datatree.keyNode] using hSplit.symm

/-- The stored paths follow the schema. -/
def Regular (values : Std.ExtTreeMap GoString Result) : Prop :=
  ∀ path ∈ values, OnSchema path

theorem Regular.leafBelow (hRegular : Regular values) (hBelow : SchemaBelow base nodes)
    {path : GoString} (hPath : path ∈ values) {rest : List Segment}
    (hParse : parse path = .ok (base ++ rest)) : LeafBelow nodes rest := by
  obtain ⟨segments, hSegments, hLeaf⟩ := hRegular path hPath
  cases hSegments.symm.trans hParse
  exact leafBelow_of_append hBelow hLeaf

/-- The stored paths parse, and name the key of a list wherever they go through one. -/
structure KeysFit (values : Std.ExtTreeMap GoString Result) : Prop where
  parses : ∀ path ∈ values, ∃ segments, parse path = .ok segments
  keys : ∀ path ∈ values, ∀ base segment rest nodes child key,
    parse path = .ok (base ++ segment :: rest) → SchemaBelow base nodes →
    childNamed nodes segment.name = some child → child.node.kind = .list key → segment.key = key

theorem Regular.keysFit (hRegular : Regular values) : KeysFit values where
  parses path hPath := (hRegular path hPath).imp fun _ hSchema => hSchema.1
  keys path hPath base segment rest nodes child key hParse hBelow hChild hKind := by
    obtain ⟨other, hOther, hPredicate, _⟩ := hRegular.leafBelow hBelow hPath hParse
    cases hOther.symm.trans hChild
    rw [hKind] at hPredicate
    exact (checkPredicate_list_iff.mp hPredicate).2

/-- The entries of a list list the leaves below the list. -/
theorem EntriesSpec.lists {instances : List ListEntry} {entries : List ListNode}
    (hSpec : EntriesSpec values content base child key instances entries) (hKey : key ≠ [])
    (hKind : child.node.kind = .list key) :
    Lists (shown values content) (UnderChild base child) (leavesOfEntries entries) := by
  rw [leavesOfEntries_eq_flatMap]
  have hDisjoint : instances.Pairwise fun first second => ∀ path,
      Under (base ++ [⟨child.node.name, key, first.key⟩]) child.children path →
        ¬ Under (base ++ [⟨child.node.name, key, second.key⟩]) child.children path := by
    refine (List.pairwise_map.mp hSpec.nodup).imp ?_
    intro first second hKeys path hFirst hSecond
    exact hKeys (value_eq_of_under hFirst hSecond)
  refine (Lists.flatMap (hSpec.each.imp fun _ _ hEntry => hEntry.lists) hDisjoint).congr ?_
  intro path hShown
  rw [underChild_list_iff hKey hKind]
  constructor
  · rintro ⟨entry, _, hUnder⟩
    exact ⟨entry.key, hUnder⟩
  · rintro ⟨value, hUnder⟩
    obtain ⟨entry, hEntry, rfl⟩ := hSpec.covers path (mem_of_isSome_shown hShown) value hUnder
    exact ⟨entry, hEntry, hUnder⟩

section KeysFit

variable (hKeys : KeysFit values) (hBase : baseSegments lead = .ok base)

include hKeys hBase

/-- Every entry of a list that holds a stored leaf is one of its instances. -/
theorem KeysFit.exists_instance {value : GoString} (hKey : key ≠ []) {path : GoString}
    (hPath : path ∈ values) (hUnder : Under (base ++ [⟨name, key, value⟩]) nodes path) :
    ∃ entry ∈ instancesOf values lead name, entry.key = value := by
  obtain ⟨rest, hParse, _⟩ := hUnder
  rw [List.append_assoc] at hParse
  exact ⟨_, (mem_instancesOf_iff hBase hKeys.parses).mpr
    ⟨path, hPath, ⟨name, key, value⟩, rest, hParse, rfl, hKey, rfl⟩, rfl⟩

variable (hBelow : SchemaBelow base nodes)
  (hChild : childNamed nodes child.node.name = some child)

include hBelow hChild

/-- A stored path goes through an instance of a list, under the list's name and key and with
the instance's value. -/
theorem KeysFit.instance_stored (hKind : child.node.kind = .list key)
    (hEntry : entry ∈ instancesOf values lead child.node.name) :
    entry.path = joinPath lead (⟨child.node.name, key, entry.key⟩ : Segment).text ∧
      ∃ path ∈ values, ∃ rest,
        parse path = .ok (base ++ ⟨child.node.name, key, entry.key⟩ :: rest) := by
  obtain ⟨path, hPath, ⟨name, found, value⟩, rest, hParse, rfl, _, rfl⟩ :=
    (mem_instancesOf_iff hBase hKeys.parses).mp hEntry
  obtain rfl : found = key := hKeys.keys path hPath _ _ _ _ _ _ hParse hBelow hChild hKind
  exact ⟨rfl, path, hPath, rest, hParse⟩

/-- The segment of an instance of a list. -/
theorem KeysFit.instance_segment (hKind : child.node.kind = .list key)
    (hEntry : entry ∈ instancesOf values lead child.node.name) :
    (⟨child.node.name, key, entry.key⟩ : Segment).WellFormed ∧
      47 ∉ (⟨child.node.name, key, entry.key⟩ : Segment).text ∧
      entry.path = joinPath lead (⟨child.node.name, key, entry.key⟩ : Segment).text := by
  obtain ⟨hPath, path, _, rest, hParse⟩ :=
    hKeys.instance_stored hBase hBelow hChild hKind hEntry
  obtain ⟨hWellFormed, hSlash⟩ := wellFormed_of_mem_parse hParse
    (List.mem_append_right base List.mem_cons_self)
  exact ⟨hWellFormed, hSlash, hPath⟩

theorem buildEntries_spec (hKey : key ≠ []) (hKind : child.node.kind = .list key)
    (hKeyed : keyedNode child = true)
    (hNodup : (child.children.map fun node => node.node.name).Nodup)
    (hBuild : ∀ segment : Segment, segment.WellFormed → 47 ∉ segment.text →
      segment.name = child.node.name → segment.key = key →
      BuildSpec values content build (joinPath lead segment.text) (base ++ [segment])
        child.children) :
    ∃ entries instances, buildEntries values content build lead child.node.name key =
        .ok entries ∧ EntriesSpec values content base child key instances entries := by
  have hSegment := fun entry (hEntry : entry ∈ instancesOf values lead child.node.name) =>
    hKeys.instance_segment hBase hBelow hChild hKind hEntry
  have hCovers := fun path (hPath : path ∈ values) value
      (hUnder : Under (base ++ [⟨child.node.name, key, value⟩]) child.children path) =>
    hKeys.exists_instance hBase hKey hPath hUnder
  have hNodupKeys : ((instancesOf values lead child.node.name).map ListEntry.key).Nodup := by
    refine (nodup_instancesOf child.node.name).map_on ?_
    intro first hFirst second hSecond hSame
    have hPath := (hSegment first hFirst).2.2
    rw [hSame, ← (hSegment second hSecond).2.2] at hPath
    cases first
    cases second
    simp_all
  obtain ⟨keyNode, kind, hKeyNode, hLeafKind⟩ := keyLeaf_of_keyedNode hKeyed hKind
  unfold buildEntries
  cases hInstances : instancesOf values lead child.node.name with
  | nil =>
    rw [hInstances] at hCovers hNodupKeys
    exact ⟨[], [], rfl, List.Forall₂.nil, hNodupKeys, hCovers⟩
  | cons first rest =>
    rw [hInstances] at hSegment hCovers hNodupKeys
    obtain ⟨hWellFormed, hSlash, hPath⟩ := hSegment first List.mem_cons_self
    have hPredicate : checkPredicate ⟨child.node.name, key, first.key⟩ child.node.kind =
        .ok () := by
      rw [hKind]
      exact checkPredicate_list_iff.mpr ⟨hKey, rfl⟩
    have hChildren : childrenOf first.path = .ok (child.children.map SchemaNode.node) := by
      rw [hPath]
      exact childrenOf_of_schemaBelow (baseSegments_joinPath hBase hWellFormed hSlash)
        (hBelow.to_child hChild hPredicate (by simp [hKind]))
    have hPerm : sortEntries keyNode.node.kind (first :: rest) ~ first :: rest :=
      List.perm_insertionSort _ _
    have hEntries : ∀ entry ∈ sortEntries keyNode.node.kind (first :: rest), ∃ built,
        buildEntry values content build key keyNode.node.kind entry = .ok built ∧
          EntrySpec values content base child key entry built := by
      intro entry hEntry
      obtain ⟨hForm, hPlain, hAt⟩ := hSegment entry (hPerm.mem_iff.mp hEntry)
      refine buildEntry_spec hNodup hKeyNode hLeafKind ?_
      rw [hAt]
      exact hBuild _ hForm hPlain rfl rfl
    obtain ⟨entries, hMap, hEach⟩ := exists_mapM_eq_ok hEntries
    refine ⟨entries, sortEntries keyNode.node.kind (first :: rest), ?_,
      hEach.imp fun _ _ hBoth => hBoth.2, (hPerm.map ListEntry.key).nodup_iff.mpr hNodupKeys, ?_⟩
    · simp only [hChildren, bind, Except.bind, nodeNamed_map, hKeyNode]
      exact hMap
    · intro path hStored value hUnder
      obtain ⟨entry, hEntry, hValue⟩ := hCovers path hStored value hUnder
      exact ⟨entry, hPerm.mem_iff.mpr hEntry, hValue⟩

theorem buildChild_spec {names : List GoString}
    (hAgrees : nodeAgrees Model.Device.fields names child.node = true)
    (hKeyed : keyedNode child = true)
    (hNodup : (child.children.map fun node => node.node.name).Nodup)
    (hBuild : ∀ segment : Segment, segment.WellFormed → 47 ∉ segment.text →
      segment.name = child.node.name → checkPredicate segment child.node.kind = .ok () →
      (∀ kind, child.node.kind ≠ .leaf kind) →
      BuildSpec values content build (joinPath lead segment.text) (base ++ [segment])
        child.children) :
    ∃ output, buildChild values content build lead child.node = .ok output ∧
      ChildSpec values content lead base child output := by
  unfold nodeAgrees at hAgrees
  rw [Bool.and_eq_true] at hAgrees
  obtain ⟨hPlain, hAgrees⟩ := hAgrees
  unfold buildChild
  cases hKind : child.node.kind with
  | leaf kind =>
    refine ⟨_, rfl, ?_, ?_, ?_, by simp [hKind], by simp [hKind]⟩
    · intro node hNode
      rw [leafNode_eq_map] at hNode
      obtain ⟨value, _, rfl⟩ := Option.map_eq_some_iff.mp hNode
      rfl
    · have hLists : Lists (shown values content) (UnderChild base child) _ :=
        (Lists.single (shown values content) (joinPath lead child.node.name)).congr
          fun path _ => (underChild_leaf_iff hBase hPlain hKind path).symm
      rw [leafNode_eq_map]
      cases hShown : shown values content (joinPath lead child.node.name) with
      | none => simpa [hShown, leavesOfAll] using hLists
      | some value => simpa [hShown, leavesOfAll, DataNode.leaves] using hLists
    · intro other hOther
      cases hKind.symm.trans hOther
      rfl
  | container =>
    obtain ⟨hWellFormed, hSlash⟩ := wellFormed_bareSegment hPlain
    have hInner : ∀ key, child.node.kind ≠ .list key := by simp [hKind]
    obtain ⟨outputs, hOk, hOutputs⟩ := hBuild _ hWellFormed hSlash rfl
      ((checkPredicate_inner_iff hInner).mpr rfl) (by simp [hKind])
    rw [text_bareSegment] at hOk
    refine ⟨some (.container (joinPath lead child.node.name) child.node.name
      outputs.reduceOption), ?_, ?_, ?_, by simp [hKind], ?_, by simp [hKind]⟩
    · dsimp only
      rw [hOk]
      rfl
    · rintro node ⟨⟩
      rfl
    · have hLists := lists_reduceOption hOutputs hNodup
      have hSame : leavesOfAll (some (DataNode.container (joinPath lead child.node.name)
          child.node.name outputs.reduceOption)).toList = leavesOfAll outputs.reduceOption := by
        simp [leavesOfAll, DataNode.leaves]
      rw [hSame]
      exact hLists.congr fun path _ => (underChild_container_iff hKind path).symm
    · exact fun _ => ⟨_, _, rfl⟩
  | list key =>
    simp only [hKind, Bool.and_eq_true] at hAgrees
    have hKey : key ≠ [] := (plainName_iff hAgrees.1.2).1
    obtain ⟨entries, instances, hOk, hSpec⟩ := buildEntries_spec hKeys hBase hBelow hChild hKey
      hKind hKeyed hNodup fun segment hWellFormed hSlash hName hSegmentKey =>
        hBuild segment hWellFormed hSlash hName
          (hKind ▸ checkPredicate_list_iff.mpr ⟨hSegmentKey ▸ hKey, hSegmentKey⟩)
          (by simp [hKind])
    refine ⟨some (.list (joinPath lead child.node.name) child.node.name key entries), ?_, ?_, ?_,
      by simp [hKind], by simp [hKind], ?_⟩
    · dsimp only
      rw [hOk]
      rfl
    · rintro node ⟨⟩
      rfl
    · have hLists := hSpec.lists hKey hKind
      have hSame : leavesOfAll (some (DataNode.list (joinPath lead child.node.name)
          child.node.name key entries)).toList = leavesOfEntries entries := by
        simp [leavesOfAll, DataNode.leaves]
      rw [hSame]
      exact hLists
    · intro other hOther
      cases hKind.symm.trans hOther
      exact ⟨_, entries, instances, rfl, hSpec⟩

end KeysFit

/-- What `buildChildren` builds below a node of the schema, with enough levels. -/
theorem buildChildren_spec (content : Content) (hKeys : KeysFit values) {depth levels : Nat}
    (hLevels : depth < levels) {lead : GoString} {base : List Segment}
    (hTree : treeKeyed depth nodes = true) (hBase : baseSegments lead = .ok base)
    (hBelow : SchemaBelow base nodes) :
    BuildSpec values content (buildChildren values content levels) lead base nodes := by
  induction levels generalizing depth lead base nodes with
  | zero => omega
  | succ levels ih =>
    obtain ⟨hNodup, hKeyed, hDeeper⟩ := keyed_of_treeKeyed hTree
    have hChildren := childrenOf_of_schemaBelow hBase hBelow
    obtain ⟨names, hNames, hAgree⟩ := nodeAgrees_of_childrenOf_eq_ok hChildren
    have hSteps : ∀ child ∈ nodes, ∃ output,
        buildChild values content (buildChildren values content levels) lead child.node =
            .ok output ∧ ChildSpec values content lead base child output := by
      intro child hMem
      obtain ⟨less, hLess, hLower⟩ := hDeeper child hMem
      have hChild := childNamed_of_mem hNodup hMem
      refine buildChild_spec hKeys hBase hBelow hChild
        (hAgree child.node (List.mem_map_of_mem hMem)) (hKeyed child hMem)
        (keyed_of_treeKeyed hLower).nodup ?_
      intro segment hWellFormed hSlash hName hPredicate hInner
      exact ih (by omega) hLower (baseSegments_joinPath hBase hWellFormed hSlash)
        (hBelow.to_child (hName ▸ hChild) hPredicate hInner)
    obtain ⟨outputs, hMap, hEach⟩ := exists_mapM_eq_ok hSteps
    refine ⟨outputs, ?_, hEach.imp fun _ _ hBoth => hBoth.2⟩
    have hAll : (nodes.map SchemaNode.node).mapM
        (buildChild values content (buildChildren values content levels) lead) =
          .ok outputs := by
      rw [List.mapM_map]
      exact hMap
    rw [buildChildren]
    exact bind_eq_ok_iff.mpr ⟨_, hChildren, bind_eq_ok_iff.mpr ⟨outputs, hAll, rfl⟩⟩

theorem exists_treeKeyed (hBelow : SchemaBelow base nodes) :
    ∃ depth < deviceLevels, treeKeyed depth nodes = true := by
  have hDescend : ∀ (segments : List Segment) (depth : Nat) (start : List SchemaNode),
      treeKeyed depth start = true → descend [] start segments = .ok nodes →
        ∃ less ≤ depth, treeKeyed less nodes = true := by
    intro segments
    induction segments with
    | nil =>
      intro depth start hTree hHere
      cases hHere
      exact ⟨depth, Nat.le_refl depth, hTree⟩
    | cons segment rest ih =>
      intro depth start hTree hHere
      obtain ⟨child, hChild, _, _, hRest⟩ := descend_cons_eq_ok_iff.mp hHere
      obtain ⟨less, hLess, hLower⟩ :=
        (keyed_of_treeKeyed hTree).below child (childNamed_eq_some hChild).1
      obtain ⟨found, hFound, hNodes⟩ := ih less child.children hLower hRest
      exact ⟨found, by omega, hNodes⟩
  obtain ⟨depth, hDepth, hTree⟩ := hDescend base 5 deviceSchema treeKeyed_deviceSchema hBelow
  exact ⟨depth, by rw [deviceLevels_eq]; omega, hTree⟩

/-- The key of a list is a leaf of its entries. -/
theorem exists_keyLeaf (hBelow : SchemaBelow base nodes) (hChild : child ∈ nodes)
    (hKind : child.node.kind = .list key) :
    ∃ keyNode kind, childNamed child.children key = some keyNode ∧
      keyNode.node.kind = .leaf kind := by
  obtain ⟨depth, _, hTree⟩ := exists_treeKeyed hBelow
  exact keyLeaf_of_keyedNode ((keyed_of_treeKeyed hTree).keyed child hChild) hKind

end Build

end Datatree
end TriadSim
