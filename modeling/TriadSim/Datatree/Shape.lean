import TriadSim.Datatree.Answers

/-!
# The shape of a read tree

A tree that `Read` builds stands at its place in the schema: every node is one of a name that the
schema has below its parent, at the path of that name, and an entry of a list carries its key leaf
if the datastore shows it.  The main result is `builds_buildChildren`.
-/

namespace TriadSim
namespace Datatree

open Go Library Router
open scoped List

/-- What holds of a built entry by itself: it is at its path, its children have different
names, its key leaf is the first of them if it is shown at all, and some stored path goes through
it. -/
structure EntryAt (values : Std.ExtTreeMap GoString Result) (content : Content) (lead : GoString)
    (base : List Segment) (child : SchemaNode) (key : GoString) (entry : ListNode) : Prop where
  path : entry.path = joinPath lead (⟨child.node.name, key, entry.keyValue⟩ : Segment).text
  wellFormed : (⟨child.node.name, key, entry.keyValue⟩ : Segment).WellFormed
  slash : 47 ∉ (⟨child.node.name, key, entry.keyValue⟩ : Segment).text
  nodup : (entry.children.map DataNode.name).Nodup
  keyLeaf : ∀ value, shown values content (joinPath entry.path key) = some value →
    ∃ kind, DataNode.leaf (joinPath entry.path key) key kind value ∈ entry.children
  first : ∀ node ∈ entry.children, node.name = key → entry.children.head? = some node
  stored : ∃ path ∈ values, ∃ rest,
    parse path = .ok (base ++ ⟨child.node.name, key, entry.keyValue⟩ :: rest)

/-- A node that stands below the path `lead`, with the segments `base` and the schema nodes
`nodes`. -/
inductive Grown (values : Std.ExtTreeMap GoString Result) (content : Content) :
    GoString → List Segment → List SchemaNode → DataNode → Prop where
  | leaf {lead : GoString} {base : List Segment} {nodes : List SchemaNode} {child : SchemaNode}
      {kind : LeafKind} {value : Leaf} (hChild : childNamed nodes child.node.name = some child)
      (hKind : child.node.kind = .leaf kind)
      (hShown : shown values content (joinPath lead child.node.name) = some value) :
      Grown values content lead base nodes
        (.leaf (joinPath lead child.node.name) child.node.name kind value)
  | container {lead : GoString} {base : List Segment} {nodes : List SchemaNode}
      {child : SchemaNode} {children : List DataNode}
      (hChild : childNamed nodes child.node.name = some child)
      (hKind : child.node.kind = .container) (hNodup : (children.map DataNode.name).Nodup)
      (hChildren : ∀ inner ∈ children, Grown values content (joinPath lead child.node.name)
        (base ++ [bareSegment child.node.name]) child.children inner) :
      Grown values content lead base nodes
        (.container (joinPath lead child.node.name) child.node.name children)
  | list {lead : GoString} {base : List Segment} {nodes : List SchemaNode}
      {child : SchemaNode} {key : GoString} {entries : List ListNode}
      (hChild : childNamed nodes child.node.name = some child)
      (hKind : child.node.kind = .list key)
      (hEntries : ∀ entry ∈ entries, EntryAt values content lead base child key entry)
      (hChildren : ∀ entry ∈ entries, ∀ inner ∈ entry.children,
        Grown values content entry.path (base ++ [⟨child.node.name, key, entry.keyValue⟩])
          child.children inner) :
      Grown values content lead base nodes
        (.list (joinPath lead child.node.name) child.node.name key entries)

variable {lead : GoString} {base : List Segment} {nodes : List SchemaNode} {child : SchemaNode}
    {key : GoString}

/-- The names in the schema are plain. -/
theorem plainName_of_mem (hBase : baseSegments lead = .ok base) (hBelow : SchemaBelow base nodes)
    (hChild : child ∈ nodes) : plainName child.node.name = true := by
  obtain ⟨_, _, hAgree⟩ := nodeAgrees_of_childrenOf_eq_ok (childrenOf_of_schemaBelow hBase hBelow)
  have hAgrees := hAgree child.node (List.mem_map_of_mem hChild)
  rw [nodeAgrees, Bool.and_eq_true] at hAgrees
  exact hAgrees.1

/-- A container is a node of the schema, at the path of its name. -/
theorem SchemaBelow.container (hBelow : SchemaBelow base nodes)
    (hBase : baseSegments lead = .ok base) (hChild : childNamed nodes child.node.name = some child)
    (hKind : child.node.kind = .container) :
    baseSegments (joinPath lead child.node.name) = .ok (base ++ [bareSegment child.node.name]) ∧
      SchemaBelow (base ++ [bareSegment child.node.name]) child.children := by
  obtain ⟨hForm, hSlash⟩ :=
    wellFormed_bareSegment (plainName_of_mem hBase hBelow (childNamed_eq_some hChild).1)
  have hHere := baseSegments_joinPath hBase hForm hSlash
  rw [text_bareSegment] at hHere
  refine ⟨hHere, hBelow.to_child hChild ?_ (by simp [hKind])⟩
  exact (checkPredicate_inner_iff (by simp [hKind])).mpr rfl

/-- The key of a list has a name. -/
theorem key_ne_nil_of_list (hBase : baseSegments lead = .ok base) (hBelow : SchemaBelow base nodes)
    (hChild : child ∈ nodes) (hKind : child.node.kind = .list key) : key ≠ [] :=
  key_ne_nil_of_childrenOf_eq_ok (childrenOf_of_schemaBelow hBase hBelow)
    (List.mem_map_of_mem hChild) hKind

/-- An entry of a list is a node of the schema. -/
theorem SchemaBelow.entry (hBelow : SchemaBelow base nodes) (hBase : baseSegments lead = .ok base)
    (hChild : childNamed nodes child.node.name = some child) (hKind : child.node.kind = .list key)
    (value : GoString) :
    SchemaBelow (base ++ [⟨child.node.name, key, value⟩]) child.children := by
  have hKey := key_ne_nil_of_list hBase hBelow (childNamed_eq_some hChild).1 hKind
  refine hBelow.to_child hChild ?_ (by simp [hKind])
  rw [hKind]
  exact checkPredicate_list_iff.mpr ⟨hKey, rfl⟩

section Build

variable {values : Std.ExtTreeMap GoString Result} {content : Content} {lead : GoString}
  {base : List Segment} {nodes : List SchemaNode} {child : SchemaNode}
  {build : GoString → Except Err (List DataNode)}

/-- What `build` is to answer one level below: grown nodes of different names. -/
def Builds (values : Std.ExtTreeMap GoString Result) (content : Content)
    (build : GoString → Except Err (List DataNode)) : Prop :=
  ∀ lead base nodes built, baseSegments lead = .ok base → SchemaBelow base nodes →
    build lead = .ok built →
      (∀ node ∈ built, Grown values content lead base nodes node) ∧
        (built.map DataNode.name).Nodup

variable {key : GoString}

/-- One entry of a list. -/
theorem grown_buildEntry (hBuild : Builds values content build) {keyChild : SchemaNode}
    {kind : LeafKind} {entry : ListEntry} {built : ListNode}
    (hBase : baseSegments entry.path = .ok base) (hBelow : SchemaBelow base nodes)
    (hKeyChild : childNamed nodes key = some keyChild) (hKind : keyChild.node.kind = .leaf kind)
    (hEntry : buildEntry values content build key keyChild.node.kind entry = .ok built) :
    built.path = entry.path ∧ built.keyValue = entry.key ∧
      (built.children.map DataNode.name).Nodup ∧
      (∀ value, shown values content (joinPath entry.path key) = some value →
        DataNode.leaf (joinPath entry.path key) key kind value ∈ built.children) ∧
      (∀ node ∈ built.children, node.name = key → built.children.head? = some node) ∧
      ∀ inner ∈ built.children, Grown values content entry.path base nodes inner := by
  obtain ⟨inner, hInner, hBuilt⟩ := bind_eq_ok_iff.mp hEntry
  cases hBuilt
  obtain ⟨hGrown, hNodup⟩ := hBuild _ _ _ _ hBase hBelow hInner
  obtain ⟨_, hName⟩ := childNamed_eq_some hKeyChild
  have hKeyNode : keyNode values content entry.path key keyChild.node.kind =
      (shown values content (joinPath entry.path key)).map
        (DataNode.leaf (joinPath entry.path key) key kind) := by
    rw [hKind, keyNode, leafNode_eq_map]
  refine ⟨rfl, rfl, ?_, ?_, ?_, ?_⟩
  · show ((_ ++ _ : List DataNode).map DataNode.name).Nodup
    rw [List.map_append, List.nodup_append]
    refine ⟨?_, hNodup.sublist (List.filter_sublist.map _), ?_⟩
    · cases keyNode values content entry.path key keyChild.node.kind with
      | none => exact List.nodup_nil
      | some node => exact List.nodup_singleton _
    · intro first hFirst second hSecond
      obtain ⟨node, hNode, rfl⟩ := List.mem_map.mp hFirst
      obtain ⟨other, hOther, rfl⟩ := List.mem_map.mp hSecond
      rw [hKeyNode, Option.mem_toList, Option.map_eq_some_iff] at hNode
      obtain ⟨value, _, rfl⟩ := hNode
      have hDiffers : other.name ≠ key := by simpa using (List.mem_filter.mp hOther).2
      exact hDiffers.symm
  · intro value hShown
    refine List.mem_append_left _ ?_
    rw [hKeyNode, hShown]
    exact List.mem_cons_self
  · intro node hNode hKeyName
    rcases List.mem_append.mp hNode with hKey | hOther
    · rw [Option.mem_toList] at hKey
      show (_ ++ _ : List DataNode).head? = some node
      rw [hKey]
      rfl
    · have hDiffers : node.name ≠ key := by simpa using (List.mem_filter.mp hOther).2
      exact absurd hKeyName hDiffers
  · intro node hNode
    rcases List.mem_append.mp hNode with hKey | hOther
    · rw [hKeyNode, Option.mem_toList, Option.map_eq_some_iff] at hKey
      obtain ⟨value, hShown, rfl⟩ := hKey
      subst hName
      exact .leaf hKeyChild hKind hShown
    · exact hGrown node (List.mem_filter.mp hOther).1

section Child

variable (hRegular : Regular values) (hBase : baseSegments lead = .ok base)
  (hBelow : SchemaBelow base nodes) (hChild : childNamed nodes child.node.name = some child)

include hRegular hBase hBelow hChild

/-- The entries of a list are built one by one from its instances, in the order of their keys. -/
theorem forall₂_buildEntries (hKind : child.node.kind = .list key) {entries : List ListNode}
    (hEntries : buildEntries values content build lead child.node.name key = .ok entries) :
    ∃ keyChild kind, childNamed child.children key = some keyChild ∧
      keyChild.node.kind = .leaf kind ∧
      List.Forall₂ (fun found built =>
          buildEntry values content build key keyChild.node.kind found = .ok built)
        (sortEntries keyChild.node.kind (instancesOf values lead child.node.name)) entries := by
  obtain ⟨keyChild, kind, hKeyChild, hLeaf⟩ :=
    exists_keyLeaf hBelow (childNamed_eq_some hChild).1 hKind
  refine ⟨keyChild, kind, hKeyChild, hLeaf, ?_⟩
  unfold buildEntries at hEntries
  cases hInstances : instancesOf values lead child.node.name with
  | nil =>
    rw [hInstances] at hEntries
    cases hEntries
    exact List.Forall₂.nil
  | cons first rest =>
    rw [hInstances] at hEntries
    obtain ⟨schema, hSchema, hEntries⟩ := bind_eq_ok_iff.mp hEntries
    obtain ⟨hForm, hSlash, hPath⟩ := hRegular.keysFit.instance_segment hBase hBelow hChild hKind
      (hInstances ▸ List.mem_cons_self)
    have hChildren : childrenOf first.path = .ok (child.children.map SchemaNode.node) := by
      rw [hPath]
      exact childrenOf_of_schemaBelow (baseSegments_joinPath hBase hForm hSlash)
        (hBelow.entry hBase hChild hKind _)
    cases hSchema.symm.trans hChildren
    rw [nodeNamed_map, hKeyChild] at hEntries
    exact mapM_eq_ok_iff.mp hEntries

/-- The entries of a list. -/
theorem grown_buildEntries (hBuild : Builds values content build)
    (hKind : child.node.kind = .list key) {entries : List ListNode}
    (hEntries : buildEntries values content build lead child.node.name key = .ok entries) :
    ∀ entry ∈ entries, EntryAt values content lead base child key entry ∧
      ∀ inner ∈ entry.children, Grown values content entry.path
        (base ++ [⟨child.node.name, key, entry.keyValue⟩]) child.children inner := by
  obtain ⟨keyChild, kind, hKeyChild, hLeaf, hPairs⟩ :=
    forall₂_buildEntries hRegular hBase hBelow hChild hKind hEntries
  intro built hBuilt
  obtain ⟨found, hSorted, hBuilding⟩ := exists_of_mem_right hPairs hBuilt
  have hFound := (List.perm_insertionSort _ _).mem_iff.mp hSorted
  obtain ⟨hForm, hSlash, hPath⟩ :=
    hRegular.keysFit.instance_segment hBase hBelow hChild hKind hFound
  obtain ⟨hAt, hKey, hNodup, hKeyLeaf, hFirst, hGrown⟩ := grown_buildEntry hBuild
    (hPath ▸ baseSegments_joinPath hBase hForm hSlash) (hBelow.entry hBase hChild hKind _) hKeyChild
    hLeaf hBuilding
  have hStored := (hRegular.keysFit.instance_stored hBase hBelow hChild hKind hFound).2
  rw [← hKey] at hForm hSlash hStored hPath hGrown
  rw [← hAt] at hPath hKeyLeaf hGrown
  refine ⟨⟨hPath, hForm, hSlash, hNodup, ?_, hFirst, hStored⟩, hGrown⟩
  exact fun value hShown => ⟨kind, hKeyLeaf value hShown⟩

/-- One child of a node. -/
theorem grown_buildChild (hBuild : Builds values content build) {built : DataNode}
    (hBuilt : buildChild values content build lead child.node = .ok (some built)) :
    Grown values content lead base nodes built ∧ built.name = child.node.name := by
  unfold buildChild at hBuilt
  dsimp only at hBuilt
  cases hKind : child.node.kind with
  | leaf kind =>
    rw [hKind] at hBuilt
    have hLeaf := Except.ok.inj hBuilt
    rw [leafNode_eq_map] at hLeaf
    obtain ⟨value, hShown, rfl⟩ := Option.map_eq_some_iff.mp hLeaf
    exact ⟨.leaf hChild hKind hShown, rfl⟩
  | container =>
    rw [hKind] at hBuilt
    obtain ⟨inner, hInner, hNode⟩ := bind_eq_ok_iff.mp hBuilt
    cases hNode
    obtain ⟨hDeeper, hUnder⟩ := hBelow.container hBase hChild hKind
    obtain ⟨hGrown, hNodup⟩ := hBuild _ _ _ _ hDeeper hUnder hInner
    exact ⟨.container hChild hKind hNodup hGrown, rfl⟩
  | list key =>
    rw [hKind] at hBuilt
    obtain ⟨entries, hEntries, hNode⟩ := bind_eq_ok_iff.mp hBuilt
    cases hNode
    have hGrown := grown_buildEntries hRegular hBase hBelow hChild hBuild hKind hEntries
    exact ⟨.list hChild hKind (fun entry hEntry => (hGrown entry hEntry).1)
      fun entry hEntry => (hGrown entry hEntry).2, rfl⟩

end Child

/-- The names of the nodes that are built are names of the schema, in its order. -/
theorem names_sublist {nodes : List SchemaNode} {outputs : List (Option DataNode)}
    (hOutputs : List.Forall₂ (fun (child : SchemaNode) (output : Option DataNode) =>
      ∀ node ∈ output, node.name = child.node.name) nodes outputs) :
    outputs.reduceOption.map DataNode.name <+ nodes.map fun child => child.node.name := by
  induction hOutputs with
  | nil => exact List.Sublist.refl []
  | @cons child output _ _ hHere _ ih =>
    rw [reduceOption_cons, List.map_append, List.map_cons]
    cases output with
    | none => exact ih.cons _
    | some node =>
      rw [← hHere node rfl]
      exact ih.cons_cons _

theorem builds_buildChildren (hRegular : Regular values) (levels : Nat) :
    Builds values content (buildChildren values content levels) := by
  induction levels with
  | zero =>
    intro lead base nodes built _ _ hBuilt
    cases hBuilt
  | succ levels ih =>
    intro lead base nodes built hBase hBelow hBuilt
    obtain ⟨schema, hSchema, hBuilt⟩ := bind_eq_ok_iff.mp hBuilt
    cases hSchema.symm.trans (childrenOf_of_schemaBelow hBase hBelow)
    obtain ⟨outputs, hOutputs, hReduced⟩ := bind_eq_ok_iff.mp hBuilt
    cases hReduced
    obtain ⟨depth, _, hTree⟩ := exists_treeKeyed hBelow
    have hNodup := (keyed_of_treeKeyed hTree).nodup
    have hPairs := mapM_eq_ok_iff.mp hOutputs
    rw [List.forall₂_map_left_iff] at hPairs
    have hEach : ∀ child ∈ nodes, ∀ node,
        buildChild values content (buildChildren values content levels) lead child.node =
          .ok (some node) →
        Grown values content lead base nodes node ∧ node.name = child.node.name :=
      fun child hChild node hNode => grown_buildChild hRegular hBase hBelow
        (childNamed_of_mem hNodup hChild) ih hNode
    constructor
    · intro node hNode
      obtain ⟨child, hChild, hOutput⟩ :=
        exists_of_mem_right hPairs (List.reduceOption_mem_iff.mp hNode)
      exact (hEach child hChild node hOutput).1
    · refine hNodup.sublist (names_sublist ?_)
      refine ((List.forall₂_and_left nodes outputs).mpr ⟨fun child hChild => hChild, hPairs⟩).imp ?_
      rintro child output ⟨hChild, hOutput⟩ node rfl
      exact (hEach child hChild node hOutput).2

end Build

end Datatree
end TriadSim
