import TriadSim.Datatree.Accepted
import TriadSim.Datatree.Alone
import TriadSim.Datatree.Order
import TriadSim.Router.Rebuild

/-!
# Removing an entry of a list

A delete or a remove of a list entry wipes the configuration leaves below it.  Whether the entry
exists is not stored anywhere: a rebuilt device and a read have an entry as long as some stored
path mentions it.  So an entry is gone after its removal when it had no state leaf.
`removal_succeeds_iff` says exactly when, and `hasEntry_without_of_properlyKeyed` that the rest of
a content with canonical keys does not bring the entry back.
-/

namespace TriadSim
namespace Datatree

open Go Library Router Store

/-! ## The entries of a read -/

mutual

/-- The paths of the list entries of a tree. -/
def DataNode.entryPaths : DataNode → List GoString
  | .leaf _ _ _ _ => []
  | .container _ _ children => entryPathsOfAll children
  | .list _ _ _ entries => entryPathsOfEntries entries

def entryPathsOfAll : List DataNode → List GoString
  | [] => []
  | node :: rest => node.entryPaths ++ entryPathsOfAll rest

def entryPathsOfEntries : List ListNode → List GoString
  | [] => []
  | .mk path _ children :: rest => path :: entryPathsOfAll children ++ entryPathsOfEntries rest

end

variable {path : GoString} {segment : Segment} {r : Router} {entry base : GoString}
    {document : Document} {schema : List Node} {inherited op : Op} {content : Values}

theorem mem_entryPathsOfAll {nodes : List DataNode} :
    path ∈ entryPathsOfAll nodes ↔ ∃ node ∈ nodes, path ∈ node.entryPaths := by
  induction nodes with
  | nil => simp [entryPathsOfAll]
  | cons node rest ih => simp [entryPathsOfAll, ih]

theorem mem_entryPathsOfEntries {entries : List ListNode} :
    path ∈ entryPathsOfEntries entries ↔ ∃ entry ∈ entries,
      path = entry.path ∨ ∃ node ∈ entry.children, path ∈ node.entryPaths := by
  induction entries with
  | nil => simp [entryPathsOfEntries]
  | cons entry rest ih =>
    obtain ⟨entryPath, keyValue, children⟩ := entry
    simp [entryPathsOfEntries, ih, mem_entryPathsOfAll, ListNode.path, ListNode.children,
      or_assoc]

section Grown

variable {values : Std.ExtTreeMap GoString Result} {content : Content}

variable {lead : GoString} {base : List Segment}

variable {child : SchemaNode} {key : GoString} {nodes : List SchemaNode} {node : DataNode}

/-- The path of an entry that is built below `lead`. -/
theorem EntryAt.parsed {entry : ListNode}
    (hEntry : EntryAt values content lead base child key entry)
    (hBase : baseSegments lead = .ok base) :
    parse entry.path = .ok (base ++ [⟨child.node.name, key, entry.keyValue⟩]) := by
  rw [hEntry.path]
  exact parse_joinPath hBase hEntry.wellFormed hEntry.slash

theorem EntryAt.baseSegments {entry : ListNode}
    (hEntry : EntryAt values content lead base child key entry)
    (hBase : Router.baseSegments lead = .ok base) :
    Router.baseSegments entry.path = .ok (base ++ [⟨child.node.name, key, entry.keyValue⟩]) := by
  rw [hEntry.path]
  exact baseSegments_joinPath hBase hEntry.wellFormed hEntry.slash

/-- Some stored path goes through every entry of a tree. -/
theorem Grown.stored_of_entryPaths (hGrown : Grown values content lead base nodes node)
    (hBase : baseSegments lead = .ok base) (hBelow : SchemaBelow base nodes) {path : GoString}
    (hPath : path ∈ node.entryPaths) :
    ∃ stored ∈ values, ∃ segments more, parse path = .ok segments ∧
      parse stored = .ok (segments ++ more) := by
  induction hGrown with
  | leaf hChild hKind hShown => cases hPath
  | @container lead base nodes child children hChild hKind hNodup hChildren ih =>
    rw [DataNode.entryPaths, mem_entryPathsOfAll] at hPath
    obtain ⟨inner, hInner, hPath⟩ := hPath
    obtain ⟨hHere, hNext⟩ := hBelow.container hBase hChild hKind
    exact ih inner hInner hHere hNext hPath
  | @list lead base nodes child key entries hChild hKind hEntries hChildren ih =>
    rw [DataNode.entryPaths, mem_entryPathsOfEntries] at hPath
    obtain ⟨entry, hEntry, rfl | ⟨inner, hInner, hPath⟩⟩ := hPath
    · obtain ⟨stored, hStored, rest, hParse⟩ := (hEntries entry hEntry).stored
      refine ⟨stored, hStored, _, rest, (hEntries entry hEntry).parsed hBase, ?_⟩
      rw [hParse, List.append_assoc]
      rfl
    · exact ih entry hEntry inner hInner ((hEntries entry hEntry).baseSegments hBase)
        (hBelow.entry hBase hChild hKind _) hPath

/-- A leaf of a tree is inside of the entries that its path has predicates of. -/
theorem Grown.entryPaths_of_leaves (hGrown : Grown values content lead base nodes node)
    (hBase : baseSegments lead = .ok base) (hBelow : SchemaBelow base nodes)
    {found : GoString × Leaf} (hLeaf : found ∈ node.leaves) :
    ∃ more, parse found.1 = .ok (base ++ more) ∧ ∀ front segment rest,
      more = front ++ segment :: rest → segment.key ≠ [] →
        pathText (base ++ front ++ [segment]) ∈ node.entryPaths := by
  induction hGrown with
  | @leaf lead base nodes child kind value hChild hKind hShown =>
    rw [DataNode.leaves, List.mem_singleton] at hLeaf
    subst hLeaf
    obtain ⟨hForm, hSlash⟩ :=
      wellFormed_bareSegment (plainName_of_mem hBase hBelow (childNamed_eq_some hChild).1)
    have hParse := parse_joinPath hBase hForm hSlash
    rw [text_bareSegment] at hParse
    refine ⟨[bareSegment child.node.name], hParse, ?_⟩
    -- The only segment is the bare name of the leaf.
    intro front segment rest hMore hKey
    cases front with
    | nil =>
      cases hMore
      exact absurd rfl hKey
    | cons first front => simp at hMore
  | @container lead base nodes child children hChild hKind hNodup hChildren ih =>
    rw [DataNode.leaves, leavesOfAll_eq_flatMap, List.mem_flatMap] at hLeaf
    obtain ⟨inner, hInner, hLeaf⟩ := hLeaf
    obtain ⟨hHere, hNext⟩ := hBelow.container hBase hChild hKind
    obtain ⟨more, hParse, hEntries⟩ := ih inner hInner hHere hNext hLeaf
    refine ⟨bareSegment child.node.name :: more, by rw [hParse]; simp, ?_⟩
    intro front segment rest hMore hKey
    cases front with
    | nil =>
      cases hMore
      exact absurd rfl hKey
    | cons first front =>
      rw [List.cons_append, List.cons.injEq] at hMore
      obtain ⟨rfl, hMore⟩ := hMore
      rw [DataNode.entryPaths, mem_entryPathsOfAll]
      have hFound := hEntries front segment rest hMore hKey
      rw [List.append_assoc base] at hFound
      exact ⟨inner, hInner, hFound⟩
  | @list lead base nodes child key entries hChild hKind hEntries hChildren ih =>
    rw [DataNode.leaves, leavesOfEntries_eq_flatMap, List.mem_flatMap] at hLeaf
    obtain ⟨entry, hEntry, hLeaf⟩ := hLeaf
    have hLeaves : entry.leaves = leavesOfAll entry.children := by
      cases entry
      rfl
    rw [hLeaves, leavesOfAll_eq_flatMap, List.mem_flatMap] at hLeaf
    obtain ⟨inner, hInner, hLeaf⟩ := hLeaf
    have hAt := hEntries entry hEntry
    obtain ⟨more, hParse, hDeeper⟩ := ih entry hEntry inner hInner (hAt.baseSegments hBase)
      (hBelow.entry hBase hChild hKind _) hLeaf
    refine ⟨⟨child.node.name, key, entry.keyValue⟩ :: more, by rw [hParse]; simp, ?_⟩
    intro front segment rest hMore hKey
    rw [DataNode.entryPaths, mem_entryPathsOfEntries]
    cases front with
    | nil =>
      cases hMore
      rw [List.append_nil, pathText_of_parse_eq_ok (hAt.parsed hBase)]
      exact ⟨entry, hEntry, Or.inl rfl⟩
    | cons first front =>
      rw [List.cons_append, List.cons.injEq] at hMore
      obtain ⟨rfl, hMore⟩ := hMore
      have hFound := hDeeper front segment rest hMore hKey
      rw [List.append_assoc base] at hFound
      exact ⟨entry, hEntry, Or.inr ⟨inner, hInner, hFound⟩⟩

end Grown

/-- A path to a leaf does not end in a predicate. -/
theorem key_eq_nil_of_leafBelow {nodes : List SchemaNode} {front : List Segment}
    (hLeaf : LeafBelow nodes (front ++ [segment])) : segment.key = [] := by
  induction front generalizing nodes with
  | nil =>
    obtain ⟨child, _, hPredicate, hKind⟩ := hLeaf
    cases hNode : child.node.kind with
    | leaf kind =>
      rw [hNode] at hPredicate
      exact (checkPredicate_inner_iff (by simp)).mp hPredicate
    | container | list key =>
      rw [hNode] at hKind
      exact hKind.elim
  | cons first front ih =>
    obtain ⟨child, _, _, hKind⟩ := hLeaf
    cases hNode : child.node.kind with
    | leaf kind =>
      rw [hNode] at hKind
      simp at hKind
    | container | list key =>
      rw [hNode] at hKind
      exact ih hKind

/-- Two paths to leaves have the same key in the entries of one list. -/
theorem key_eq_of_leafBelow {nodes : List SchemaNode} {front rest others : List Segment}
    {other : Segment} (hFirst : LeafBelow nodes (front ++ segment :: rest))
    (hSecond : LeafBelow nodes (front ++ other :: others)) (hName : segment.name = other.name)
    (hKey : segment.key ≠ []) : segment.key = other.key := by
  induction front generalizing nodes with
  | nil =>
    obtain ⟨child, hChild, hPredicate, _⟩ := hFirst
    obtain ⟨found, hFound, hOther, _⟩ := hSecond
    rw [← hName] at hFound
    cases hChild.symm.trans hFound
    cases hKind : child.node.kind with
    | list key =>
      rw [hKind] at hPredicate hOther
      rw [(checkPredicate_list_iff.mp hPredicate).2, (checkPredicate_list_iff.mp hOther).2]
    | container | leaf kind =>
      rw [hKind] at hPredicate
      exact absurd ((checkPredicate_inner_iff (by simp)).mp hPredicate) hKey
  | cons first front ih =>
    obtain ⟨child, hChild, _, hBelow⟩ := hFirst
    obtain ⟨found, hFound, _, hDeeper⟩ := hSecond
    cases hChild.symm.trans hFound
    cases hKind : child.node.kind with
    | leaf kind =>
      rw [hKind] at hBelow
      simp at hBelow
    | container | list key =>
      rw [hKind] at hBelow hDeeper
      exact ih hBelow hDeeper

/-- Some read of the whole datastore has the entry. -/
def ShowsEntry {json : Json} (opts : Options) (r : Router) (ds : Datastore)
    (machine : Machine json) (entry : GoString) : Prop :=
  ∃ content env root, ((read r ds [] content).run opts env machine).1 = .ok (some root) ∧
    entry ∈ root.entryPaths

/-- Reads have an entry exactly if some stored path is below it. -/
theorem showsEntry_iff {json : Json} {opts : Options} {ds : Datastore} {machine : Machine json}
    {stored : Values} (hStored : machine.memory.datastore ds = .ok stored)
    (hSchema : ∀ path ∈ stored, OnSchema path) {results : Std.ExtTreeMap GoString Result}
    (hResults : r.describeAll stored = .ok results) {base : List Segment}
    (hParse : parse entry = .ok (base ++ [segment])) (hKey : segment.key ≠ []) :
    ShowsEntry opts r ds machine entry ↔ ∃ path ∈ stored, Below entry path := by
  have hRegular : Regular results := regular_of_describeAll hResults hSchema
  have hRoot : SchemaBelow [] deviceSchema := rfl
  constructor
  · rintro ⟨content, env, root, hRead, hEntry⟩
    obtain ⟨_, hFound⟩ := Prog.Ensures.run (@ensures_read [] r content _ opts machine ds) env
    obtain ⟨stored', results', hStored', hResults', hNode⟩ := hFound _ hRead
    cases hStored.symm.trans hStored'
    cases hResults.symm.trans hResults'
    rw [readNode, if_pos rfl] at hNode
    obtain ⟨children, hBuild, hChildren⟩ := bind_eq_ok_iff.mp hNode
    cases hChildren
    rw [DataNode.entryPaths, mem_entryPathsOfAll] at hEntry
    obtain ⟨node, hMem, hEntry⟩ := hEntry
    have hGrown := (builds_buildChildren hRegular deviceLevels [] [] deviceSchema children rfl
      hRoot hBuild).1 node hMem
    obtain ⟨path, hPath, segments, more, hSegments, hWhole⟩ :=
      hGrown.stored_of_entryPaths rfl hRoot hEntry
    cases hParse.symm.trans hSegments
    have hMemStored := mem_of_describeAll hResults hPath
    refine ⟨path, hMemStored, (hasPrefix_append_slash_iff hWhole hParse).mpr ⟨more, ?_, rfl⟩⟩
    rintro rfl
    obtain ⟨others, hOthers, hLeaf⟩ := hSchema path hMemStored
    rw [List.append_nil] at hWhole
    cases hWhole.symm.trans hOthers
    exact hKey (key_eq_nil_of_leafBelow hLeaf)
  · rintro ⟨path, hPath, hBelow⟩
    obtain ⟨root, hNode, hLists⟩ := @readNode_root _ .all hRegular
    have hRead := Prog.LiveEnsures.run
      (@ensures_live_read [] _ _ _ .all _ opts _ _ hStored hResults) (fun _ => CallEnv.quiet)
      fun _ => rfl
    refine ⟨.all, fun _ => CallEnv.quiet, root, hRead.2.trans hNode, ?_⟩
    rw [FinMap.mem_iff_isSome, Option.isSome_iff_exists] at hPath
    obtain ⟨leaf, hLeaf⟩ := hPath
    have hShown : (path, leaf) ∈ root.leaves :=
      (hLists.mem_iff path leaf).mpr ⟨trivial, (shown_all hResults path).trans hLeaf⟩
    rw [readNode, if_pos rfl] at hNode
    obtain ⟨children, hBuild, hChildren⟩ := bind_eq_ok_iff.mp hNode
    cases hChildren
    rw [DataNode.leaves, leavesOfAll_eq_flatMap, List.mem_flatMap] at hShown
    obtain ⟨node, hMem, hShown⟩ := hShown
    have hGrown := (builds_buildChildren hRegular deviceLevels [] [] deviceSchema children rfl
      hRoot hBuild).1 node hMem
    obtain ⟨more, hWhole, hEntries⟩ := hGrown.entryPaths_of_leaves rfl hRoot hShown
    obtain ⟨rest, _, hRest⟩ := (hasPrefix_append_slash_iff hWhole hParse).mp hBelow
    rw [DataNode.entryPaths, mem_entryPathsOfAll]
    refine ⟨node, hMem, ?_⟩
    rw [← pathText_of_parse_eq_ok hParse]
    exact hEntries base segment rest (by simpa using hRest) hKey

/-! ## The requests -/

/-- The operation of a document, its own or the inherited one. -/
def operationOf (document : Document) (inherited : Op) : Except Err Op :=
  (parseOperationAttr document).map fun explicit => explicit.getD inherited

/-- A document whose only effect is the delete or the remove of a list entry: the document of the
entry itself, or one of a container around it that is merged or has no operation. -/
inductive Removes (op : Op) (entry : GoString) : Document → GoString → List Node → Op → Prop where
  | entry {document : Document} {base : GoString} {schema : List Node} {inherited : Op}
      {node : Node} {key value : GoString} (hNode : nodeNamed schema document.name = some node)
      (hKind : node.kind = .list key) (hOp : operationOf document inherited = .ok op)
      (hRemoves : op = .delete ∨ op = .remove) (hKey : listKey document key = .ok value)
      (hEntry : entry = joinPath base document.name ++ [91] ++ key ++ [61] ++ value ++ [93]) :
      Removes op entry document base schema inherited
  | container {document child : Document} {base : GoString} {schema nodes : List Node}
      {inherited outer : Op} {node : Node} (hNode : nodeNamed schema document.name = some node)
      (hKind : node.kind = .container) (hOp : operationOf document inherited = .ok outer)
      (hOuter : outer = .merge ∨ outer = .none)
      (hNodes : childrenOf (joinPath base document.name) = .ok nodes)
      (hChildren : document.children = [child])
      (hChild : Removes op entry child (joinPath base document.name) nodes outer) :
      Removes op entry document base schema inherited

/-- A request whose only effect is the delete or the remove of a list entry. -/
def EditRequest.RemovesEntry (req : EditRequest) (op : Op) (entry : GoString) : Prop :=
  ∃ schema document, childrenOf req.basePath = .ok schema ∧ req.documents = [document] ∧
    Removes op entry document req.basePath schema req.default

/-- The walk of a document for a container or an entry. -/
theorem walk_inner {node : Node} (hNode : nodeNamed schema document.name = some node)
    (hKind : ∀ kind, node.kind ≠ .leaf kind) (hOp : operationOf document inherited = .ok op)
    (hPath : Editor.addressOf base document node = .ok path) (e : Editor) :
    Editor.walk r document base schema inherited e =
      e.enter path document.name op fun nodes prepared =>
        Editor.walkAll r document.children path nodes (childOperation op) prepared := by
  obtain ⟨name, text, attrs, children⟩ := document
  obtain ⟨explicit, hExplicit, rfl⟩ := map_eq_ok_iff.mp hOp
  rw [Editor.walk, show nodeNamed schema name = some node from hNode]
  dsimp only
  rw [hExplicit]
  show (Editor.addressOf base _ node >>= _) = _
  rw [hPath]
  cases hCase : node.kind with
  | leaf kind => exact absurd hCase (hKind kind)
  | container | list key => rfl

theorem walkAll_one (e : Editor) : Editor.walkAll r [document] base schema inherited e =
      Editor.walk r document base schema inherited e := by
  rw [Editor.walkAll]
  cases Editor.walk r document base schema inherited e <;> rfl

variable {e : Editor} {name : GoString}

/-- A merge and no operation at all only lead to the children. -/
theorem enter_passing (hOp : op = .merge ∨ op = .none) {nodes : List Node}
    (hNodes : childrenOf path = .ok nodes) (walkChildren : List Node → Editor → Except Err Editor) :
    e.enter path name op walkChildren = walkChildren nodes e := by
  rw [Editor.enter, hNodes]
  rcases hOp with rfl | rfl <;> rfl

theorem walk_of_removes (hRemoves : Removes op entry document base schema inherited) (e : Editor) :
    Editor.walk r document base schema inherited e = e.prepareSubtree entry op := by
  induction hRemoves with
  | @entry document base schema inherited node key value hNode hKind hOp hRemoves hKey hEntry =>
    have hAddress : Editor.addressOf base document node = .ok entry := by
      rw [Editor.addressOf, hKind]
      dsimp only
      rw [hKey, hEntry]
      rfl
    rw [walk_inner hNode (by simp [hKind]) hOp hAddress, Editor.enter]
    have hGone : (op = .delete || op = .remove) = true := by
      rcases hRemoves with rfl | rfl <;> rfl
    simp only [hGone, if_true]
    cases e.prepareSubtree entry op <;> rfl
  | @container document child base schema nodes inherited outer node hNode hKind hOp hOuter hNodes
      hChildren hChild ih =>
      have hAddress : Editor.addressOf base document node = .ok (joinPath base document.name) := by
        rw [Editor.addressOf, hKind]
      have hChildOp : childOperation outer = outer := by
        rcases hOuter with rfl | rfl <;> rfl
      rw [walk_inner hNode (by simp [hKind]) hOp hAddress, enter_passing hOuter hNodes, hChildren,
        hChildOp, walkAll_one]
      exact ih

/-- The proposal of a request that removes an entry. -/
theorem propose_of_removesEntry {req : EditRequest} (hRemoves : req.RemovesEntry op entry)
    (start : Editor) :
    propose r req start = start.prepareSubtree entry op := by
  obtain ⟨schema, document, hSchema, hDocuments, hDocument⟩ := hRemoves
  rw [propose, hSchema, hDocuments]
  exact (walkAll_one start).trans (walk_of_removes hDocument start)

theorem Removes.op_eq (hRemoves : Removes op entry document base schema inherited) :
    op = .delete ∨ op = .remove := by
  induction hRemoves with
  | entry _ _ _ hRemoves => exact hRemoves
  | container _ _ _ _ _ _ _ ih => exact ih

/-! ## What is left of the content -/

/-- A content without the leaves of an entry. -/
def without (entry : GoString) (content : Values) : Values :=
  content.filter fun path _ => !hasPrefix path (entry ++ [47])

theorem getElem?_without (entry : GoString) (content : Values) (path : GoString) :
    (without entry content)[path]? = if hasPrefix path (entry ++ [47]) then none
      else content[path]? := by
  rw [without, Std.ExtTreeMap.getElem?_filter']
  cases content[path]? <;> by_cases hBelow : hasPrefix path (entry ++ [47]) = true <;>
    simp [hBelow]

theorem getElem?_without_eq_some_iff {value : Leaf} : (without entry content)[path]? = some value ↔
      ¬ Below entry path ∧ content[path]? = some value := by
  rw [getElem?_without, Below]
  split <;> simp_all

theorem mem_without :
    path ∈ without entry content ↔ ¬ Below entry path ∧ path ∈ content := by
  simp only [FinMap.mem_iff_isSome, Option.isSome_iff_exists, getElem?_without_eq_some_iff,
    exists_and_left]

/-- A proposal that only drops leaves is what is written. -/
theorem written_of_dropped {proposed : Values}
    (hDrops : ∀ path : GoString, proposed[path]? = none ∨ proposed[path]? = content[path]?) :
    written content proposed = proposed := by
  refine Std.ExtTreeMap.ext_getElem? fun path => ?_
  rcases hDrops path with hNone | hSame
  · rw [getElem?_written, hNone]
  · rw [getElem?_written_of_eq hSame, hSame]

/-- A wipe drops the configuration leaves of the subtree. -/
theorem getElem?_wipe (hSound : Editor.Sound r e) (hEntry : ¬ LeafPath entry) (path : GoString) :
    (e.wipe entry).proposed[path]? =
      if hasPrefix path (entry ++ [47]) = true ∧ r.isState path = false then none
      else e.proposed[path]? := by
  rw [Editor.wipe, Editor.getElem?_removeAll]
  have hMem : path ∈ e.below entry ++ [entry] ↔
      (path ∈ e.proposed ∧ r.isState path = false ∧ Below entry path) ∨ path = entry := by
    rw [List.mem_append, List.mem_singleton, Editor.mem_below, hSound.writable_iff]
    tauto
  by_cases hIn : path ∈ e.proposed
  · have hSelf : path ≠ entry := by
      rintro rfl
      exact hEntry (hSound.leaves _ hIn)
    by_cases hBoth : hasPrefix path (entry ++ [47]) = true ∧ r.isState path = false
    · rw [if_pos hBoth, if_pos (hMem.mpr (Or.inl ⟨hIn, hBoth.2, hBoth.1⟩))]
    · rw [if_neg hBoth, if_neg]
      intro hGone
      rcases hMem.mp hGone with ⟨_, hState, hBelow⟩ | hSame
      · exact hBoth ⟨hBelow, hState⟩
      · exact hSelf hSame
  · rw [FinMap.mem_iff_isSome, Option.not_isSome_iff_eq_none] at hIn
    rw [hIn, ite_self, ite_self]

/-- The entry of a list is no leaf when a leaf is below it. -/
theorem not_leafPath_of_below (hPath : LeafPath path) (hBelow : Below entry path) :
    ¬ LeafPath entry := by
  rintro ⟨segments, hParse, hLeaf⟩
  obtain ⟨longer, hLonger, hOther⟩ := hPath
  obtain ⟨rest, hRest, rfl⟩ := (hasPrefix_append_slash_iff hLonger hParse).mp hBelow
  obtain ⟨first, hFirst⟩ := Option.isSome_iff_exists.mp hLeaf
  obtain ⟨second, hSecond⟩ := Option.isSome_iff_exists.mp hOther
  rw [List.map_append] at hSecond
  have hNone := rest_eq_nil_of_leafAt hFirst hSecond
  exact hRest (List.map_eq_nil_iff.mp hNone)

/-! ## The entry after its removal -/

/-- The device that is rebuilt from a content has the entry. -/
def hasEntry (r : Router) (content : Values) (base : List Segment) (segment : Segment) : Bool :=
  (deviceFromValues r.root content).toOption.any fun device =>
    match lookup Model.Device.fields device.toVals (base ++ [bareSegment segment.name]) with
    | some (.list keys) => keys.contains (some segment.value)
    | _ => false

/-- An entry that can be removed: the content can be read, the entry has configuration leaves
only, any other leaf that Go finds different from itself can be written again, and the rest of
the content does not describe the entry as well. -/
structure Removable (r : Router) (content : Values) (entry : GoString) (base : List Segment)
    (segment : Segment) : Prop where
  readable : ∃ results, r.describeAll content = .ok results
  configured : ∀ path ∈ content, Below entry path → r.isState path = false
  rewritable : ∀ (path : GoString) value, (without entry content)[path]? = some value →
    Leaf.goEq value value = false → ∃ converted, r.convert path (.leaf value) = .ok converted
  undescribed : hasEntry r (without entry content) base segment = false

/-- The device that is rebuilt from the rest of a content does not have the entry, if the rest
names the entries of its lists by canonical keys. -/
theorem hasEntry_without_of_properlyKeyed {base : List Segment}
    (hUnique : uniqueKeys Model.Device.fields r.root.toVals = true)
    (hSchema : ∀ path ∈ content, OnSchema path) (hParse : parse entry = .ok (base ++ [segment]))
    (hKey : segment.key ≠ []) (hHeld : ∃ path ∈ content, Below entry path)
    (hList : Router.Addressed Model.Device.fields (base ++ [bareSegment segment.name]))
    (hSome : without entry content ≠ ∅) (hKeyed : ProperlyKeyed (without entry content)) :
    hasEntry r (without entry content) base segment = false := by
  rw [hasEntry, ← Bool.not_eq_true, Option.any_eq_true]
  rintro ⟨device, hDevice, hEntry⟩
  cases hRebuilt : deviceFromValues r.root (without entry content) with
  | error err =>
    rw [hRebuilt] at hDevice
    cases hDevice
  | ok rebuilt =>
    rw [hRebuilt] at hDevice
    cases hDevice
    split at hEntry
    · next keys hLookup =>
      -- some path of the rest would go through the entry, and so would have been taken away
      obtain ⟨value, hValue, path, segments, hPath, hSegments, lead, name, key, behind, hOther,
        hSplit, rfl⟩ := ((hasMentionedEntries_of_deviceFromValues hUnique hSome hKeyed
          hRebuilt _ keys hList hLookup).2 _).mp (List.contains_iff_mem.mp hEntry)
      cases hValue
      obtain ⟨rfl, hLast⟩ := List.append_inj' hSplit rfl
      cases hLast
      obtain ⟨hOutside, hStored⟩ := mem_without.mp hPath
      obtain ⟨held, hThere, hBelow⟩ := hHeld
      obtain ⟨whole, hWhole, hLeaf⟩ := hSchema held hThere
      obtain ⟨rest, _, rfl⟩ := (hasPrefix_append_slash_iff hWhole hParse).mp hBelow
      obtain ⟨others, hOthers, hAlso⟩ := hSchema path hStored
      cases hOthers.symm.trans hSegments
      have hSame : segment.key = key := key_eq_of_leafBelow
        (by simpa using hLeaf) hAlso rfl hKey
      refine hOutside ((hasPrefix_append_slash_iff hSegments hParse).mpr ⟨behind, ?_, ?_⟩)
      · rintro rfl
        exact hOther (key_eq_nil_of_leafBelow hAlso)
      · rw [← hSame]
        simp
    · cases hEntry

section Removal

variable {r : Router} {content : Values} {results : Std.ExtTreeMap GoString Result}
  {entry : GoString}

theorem getElem?_wipe_editorOf (hResults : r.describeAll content = .ok results)
    (hHeld : ∃ path ∈ content, Below entry path) (path : GoString) :
    ((editorOf results).wipe entry).proposed[path]? =
      if hasPrefix path (entry ++ [47]) = true ∧ r.isState path = false then none
      else content[path]? := by
  obtain ⟨hContent, hSound⟩ := editorOf_spec hResults
  obtain ⟨held, hHeld, hBelow⟩ := hHeld
  rw [getElem?_wipe hSound (not_leafPath_of_below (hSound.leaves held (hContent ▸ hHeld)) hBelow),
    hContent]

/-- Without state leaves nothing is left of an entry. -/
theorem wipe_eq_without (hResults : r.describeAll content = .ok results)
    (hHeld : ∃ path ∈ content, Below entry path)
    (hConfigured : ∀ path ∈ content, Below entry path → r.isState path = false) :
    ((editorOf results).wipe entry).proposed = without entry content := by
  refine Std.ExtTreeMap.ext_getElem? fun path => ?_
  rw [getElem?_wipe_editorOf hResults hHeld, getElem?_without]
  by_cases hBelow : hasPrefix path (entry ++ [47]) = true
  · by_cases hIn : path ∈ content
    · rw [if_pos ⟨hBelow, hConfigured path hIn hBelow⟩, if_pos hBelow]
    · rw [FinMap.mem_iff_isSome, Option.not_isSome_iff_eq_none] at hIn
      rw [hIn, ite_self, ite_self]
  · rw [if_neg fun hBoth => hBelow hBoth.1, if_neg hBelow]

/-- What a removal writes is what its wipe has left. -/
theorem written_wipe (hResults : r.describeAll content = .ok results)
    (hHeld : ∃ path ∈ content, Below entry path) :
    written content ((editorOf results).wipe entry).proposed =
      ((editorOf results).wipe entry).proposed := by
  refine written_of_dropped fun path => ?_
  rw [getElem?_wipe_editorOf hResults hHeld]
  split
  · exact Or.inl rfl
  · exact Or.inr rfl

variable {op : Op}

/-- The proposal of a removal is the wipe of the entry. -/
theorem eq_wipe_of_prepareSubtree (hOp : op = .delete ∨ op = .remove) {start edited : Editor}
    (hPrepare : start.prepareSubtree entry op = .ok edited) :
    edited = start.wipe entry := by
  rcases hOp with rfl | rfl
  · rw [Editor.prepareSubtree] at hPrepare
    split at hPrepare
    · exact (Except.ok.inj hPrepare).symm
    · cases hPrepare
  · exact (Except.ok.inj hPrepare).symm

/-- An entry with a configuration leaf can be deleted and removed. -/
theorem prepareSubtree_of_configured (hOp : op = .delete ∨ op = .remove)
    (hResults : r.describeAll content = .ok results)
    (hHeld : ∃ path ∈ content, Below entry path ∧ r.isState path = false) :
    (editorOf results).prepareSubtree entry op = .ok ((editorOf results).wipe entry) := by
  obtain ⟨hContent, hSound⟩ := editorOf_spec hResults
  rcases hOp with rfl | rfl
  · obtain ⟨path, hPath, hBelow, hConfig⟩ := hHeld
    have hContains : (editorOf results).contains entry = true := by
      have hMem : path ∈ (editorOf results).below entry := by
        rw [Editor.mem_below, hSound.writable_iff, hContent]
        exact ⟨hPath, ⟨hPath, hConfig⟩, hBelow⟩
      rw [Editor.contains, Bool.or_eq_true, Bool.not_eq_true', List.isEmpty_eq_false_iff]
      exact Or.inr (List.ne_nil_of_mem hMem)
    rw [Editor.prepareSubtree, if_pos hContains]
  · rfl

/-- A part of a content that can be read can be read. -/
theorem exists_describeAll_of_subset (hResults : r.describeAll content = .ok results)
    {part : Values} (hPart : ∀ (path : GoString) value, part[path]? = some value →
      content[path]? = some value) :
    ∃ described, r.describeAll part = .ok described := by
  refine FinMap.exists_traverse_eq_ok r.describe part fun path value hValue => ?_
  obtain ⟨image, hImage, _⟩ :=
    (FinMap.traverse_eq_ok_image hResults path).1 value (hPart path value hValue)
  exact ⟨image, hImage⟩

variable {req : EditRequest}

/-- What a removal makes of a content, if it succeeds. -/
theorem amend_removal_eq_ok (hRemoves : req.RemovesEntry op entry)
    (hHeld : ∃ path ∈ content, Below entry path) {new : Values}
    (hAmend : amend r req content = .ok new) :
    ∃ results, r.describeAll content = .ok results ∧
      new = ((editorOf results).wipe entry).proposed ∧
      ∀ (path : GoString) value, (changedLeaves content new)[path]? = some value →
        ∃ converted, r.convert path (.leaf value) = .ok converted := by
  obtain ⟨edited, ⟨⟨results, hResults, hPropose⟩, _⟩, hConverts, rfl⟩ := amend_eq_ok_iff.mp hAmend
  rw [propose_of_removesEntry hRemoves] at hPropose
  obtain ⟨_, _, _, _, hDocument⟩ := hRemoves
  cases eq_wipe_of_prepareSubtree hDocument.op_eq hPropose
  rw [written_wipe hResults hHeld]
  exact ⟨results, hResults, rfl, hConverts⟩

/-- A removable entry is removed. -/
theorem amend_of_removable (hRemoves : req.RemovesEntry op entry)
    (hHeld : ∃ path ∈ content, Below entry path) {base : List Segment} {segment : Segment}
    (hRemovable : Removable r content entry base segment)
    (hRest : r.validate none (without entry content) = .ok ()) :
    amend r req content = .ok (without entry content) := by
  obtain ⟨results, hResults⟩ := hRemovable.readable
  have hWipe := wipe_eq_without hResults hHeld hRemovable.configured
  refine amend_eq_ok_iff.mpr ⟨(editorOf results).wipe entry, ⟨⟨results, hResults, ?_⟩, ?_⟩, ?_, ?_⟩
  · rw [propose_of_removesEntry hRemoves]
    obtain ⟨_, _, _, _, hDocument⟩ := hRemoves
    obtain ⟨path, hPath, hBelow⟩ := hHeld
    exact prepareSubtree_of_configured hDocument.op_eq hResults
      ⟨path, hPath, hBelow, hRemovable.configured path hPath hBelow⟩
  · rw [hWipe]
    exact hRest
  · intro path value hChanged
    rw [hWipe, getElem?_changedLeaves, Option.filter_eq_some_iff] at hChanged
    obtain ⟨hValue, hDiffers⟩ := hChanged
    rw [(getElem?_without_eq_some_iff.mp hValue).2] at hDiffers
    exact hRemovable.rewritable path value hValue (by simpa using hDiffers)
  · rw [written_wipe hResults hHeld, hWipe]

end Removal

/-- The delete or the remove of an entry, after which the rest of the device is valid, succeeds
and leaves the entry neither in the rebuilt device nor in a read of the whole datastore, exactly
if the entry is removable. -/
theorem removal_succeeds_iff {json : Json} (opts : Options) (r : Router) (ds : Datastore)
    (machine : Machine json) (content : Values)
    (hContent : machine.memory.datastore ds = .ok content)
    (hSchema : ∀ path ∈ content, OnSchema path) (req : EditRequest) (op : Op) (entry : GoString)
    (hRemoves : req.RemovesEntry op entry) (base : List Segment) (segment : Segment)
    (hParse : parse entry = .ok (base ++ [segment])) (hKey : segment.key ≠ [])
    (hHeld : ∃ path ∈ content, Below entry path)
    (hRest : r.validate none (without entry content) = .ok ()) (env : Nat → CallEnv)
    (hLive : ∀ index, (env index).ctx = none) :
    (((apply r ds req).run opts env machine).1 = .ok () ∧
      ∃ new, ((apply r ds req).run opts env machine).2.memory.datastore ds = .ok new ∧
        hasEntry r new base segment = false ∧
        ¬ ShowsEntry opts r ds ((apply r ds req).run opts env machine).2 entry) ↔
      Removable r content entry base segment := by
  have hAmends := Prog.LiveEnsures.run (@ensures_live_edit _ opts machine r ds req _ hContent) env
    hLive
  constructor
  · rintro ⟨hOk, new, hNew, hDevice, hRead⟩
    cases hAmend : amend r req content with
    | error err =>
      rw [hAmend] at hAmends
      cases hOk.symm.trans hAmends.1
    | ok amended =>
      rw [hAmend] at hAmends
      cases hNew.symm.trans hAmends.2
      obtain ⟨results, hResults, hWiped, hConverts⟩ :=
        amend_removal_eq_ok hRemoves hHeld hAmend
      have hLeft : ∀ path : GoString, new[path]? =
          if hasPrefix path (entry ++ [47]) = true ∧ r.isState path = false then none
          else content[path]? := by
        rw [hWiped]
        exact getElem?_wipe_editorOf hResults hHeld
      have hPart : ∀ (path : GoString) value, new[path]? = some value →
          content[path]? = some value := by
        intro path value hValue
        rw [hLeft] at hValue
        split at hValue
        · cases hValue
        · exact hValue
      have hMem : ∀ path, path ∈ new → path ∈ content := by
        intro path hPath
        rw [FinMap.mem_iff_isSome, Option.isSome_iff_exists] at hPath ⊢
        obtain ⟨value, hValue⟩ := hPath
        exact ⟨value, hPart path value hValue⟩
      obtain ⟨described, hDescribed⟩ := exists_describeAll_of_subset hResults hPart
      rw [showsEntry_iff hNew (fun path hPath => hSchema path (hMem path hPath)) hDescribed hParse
        hKey] at hRead
      -- A state leaf of the entry would still be there.
      have hConfigured : ∀ path ∈ content, Below entry path → r.isState path = false := by
        intro path hPath hBelow
        by_contra hState
        refine hRead ⟨path, ?_, hBelow⟩
        rw [FinMap.mem_iff_isSome, hLeft, if_neg fun hBoth => hState hBoth.2]
        rwa [FinMap.mem_iff_isSome] at hPath
      have hWithout : new = without entry content :=
        hWiped.trans (wipe_eq_without hResults hHeld hConfigured)
      refine ⟨⟨results, hResults⟩, hConfigured, ?_, hWithout ▸ hDevice⟩
      intro path value hValue hDiffers
      refine hConverts path value ?_
      rw [getElem?_changedLeaves, hWithout, hValue]
      rw [← hWithout] at hValue
      rw [hPart path value hValue]
      simp [Option.filter, hDiffers]
  · intro hRemovable
    have hAmend := amend_of_removable hRemoves hHeld hRemovable hRest
    rw [hAmend] at hAmends
    obtain ⟨hOk, hNew⟩ := hAmends
    refine ⟨hOk, without entry content, hNew, hRemovable.undescribed, ?_⟩
    obtain ⟨results, hResults⟩ := hRemovable.readable
    obtain ⟨described, hDescribed⟩ := exists_describeAll_of_subset hResults
      fun path value hValue => (getElem?_without_eq_some_iff.mp hValue).2
    rw [showsEntry_iff hNew (fun path hPath => hSchema path (mem_without.mp hPath).2) hDescribed
      hParse hKey]
    rintro ⟨path, hPath, hBelow⟩
    exact (mem_without.mp hPath).1 hBelow

/-- The bare content with a VLAN. -/
def labContent : Values :=
  (bareContent.insert (text "vlans/vlan[id=7]/id") (.uint16 7)).insert
    (text "vlans/vlan[id=7]/name") (.string "lab")

/-- A request that has only the key of an entry below a path. -/
def removalRequest (base : GoString) (op : Op) (name key value : GoString) : EditRequest :=
  ⟨base, op, [.mk name [] [] [.mk key value [] []]]⟩

theorem removesEntry_removalRequest {key value : GoString} (hOp : op = .delete ∨ op = .remove)
    (hNode : ((childrenOf base).toOption.any fun schema => (nodeNamed schema name).any fun node =>
      decide (node.kind = .list key)) = true)
    (hKey : listKey (.mk name [] [] [.mk key value [] []]) key = .ok value) :
    (removalRequest base op name key value).RemovesEntry op
      (joinPath base name ++ [91] ++ key ++ [61] ++ value ++ [93]) := by
  obtain ⟨schema, hSchema, hNode⟩ := (Option.any_eq_true _ _).mp hNode
  obtain ⟨node, hNamed, hKind⟩ := (Option.any_eq_true _ _).mp hNode
  have hChildren : childrenOf base = .ok schema := by
    cases hCase : childrenOf base with
    | error err =>
      rw [hCase] at hSchema
      cases hSchema
    | ok found =>
      rw [hCase] at hSchema
      cases hSchema
      rfl
  exact ⟨schema, _, hChildren, rfl, .entry hNamed (of_decide_eq_true hKind) rfl hOp hKey rfl⟩

/-- The checks of a removable entry, in a content with canonical keys. -/
theorem removable_of_checks {base : List Segment}
    (hUnique : uniqueKeys Model.Device.fields r.root.toVals = true)
    (hSchema : ∀ path ∈ content, OnSchema path) (hParse : parse entry = .ok (base ++ [segment]))
    (hKey : segment.key ≠ []) (hHeld : ∃ path ∈ content, Below entry path)
    (hReadable : (r.describeAll content).isOk = true)
    (hConfigured : (content.keys.all fun path =>
      !(hasPrefix path (entry ++ [47]) && r.isState path)) = true)
    (hEqual : (content.toList.all fun stored => Leaf.goEq stored.2 stored.2) = true)
    (hList : Router.Addressed Model.Device.fields (base ++ [bareSegment segment.name]))
    (hSome : (without entry content).isEmpty = false)
    (hKeyed : isProperlyKeyed (without entry content) = true) :
    Removable r content entry base segment where
  readable := exists_eq_ok_of_isOk hReadable
  configured := by
    intro path hPath hBelow
    have hHere := List.all_eq_true.mp hConfigured path (Std.ExtTreeMap.mem_keys.mpr hPath)
    rw [Below] at hBelow
    simpa [hBelow] using hHere
  rewritable := by
    intro path value hValue hDiffers
    have hStored := Std.ExtTreeMap.mem_toList_iff_getElem?_eq_some.mpr
      (getElem?_without_eq_some_iff.mp hValue).2
    have hSame := List.all_eq_true.mp hEqual _ hStored
    cases hSame.symm.trans hDiffers
  undescribed := hasEntry_without_of_properlyKeyed hUnique hSchema hParse hKey hHeld hList
    (fun hEmpty => by simp [hEmpty] at hSome) (properlyKeyed_of_isProperlyKeyed hKeyed)

/-- The run of a removal from running. -/
def removalRun (req : EditRequest) (content : Values) : Except Err Unit × Machine Json.plain :=
  (apply defaultRouter .running req).run (defaultRouter.options []) (fun _ => CallEnv.quiet)
    (machineWith content)

theorem lab_vlan_is_removed :
    (removalRun (removalRequest "vlans" .delete "vlan" "id" "7") labContent).1 = .ok () ∧
      ∃ new, (removalRun (removalRequest "vlans" .delete "vlan" "id" "7")
          labContent).2.memory.datastore .running = .ok new ∧
        hasEntry defaultRouter new [bareSegment "vlans"] ⟨"vlan", "id", "7"⟩ = false ∧
        ¬ ShowsEntry (defaultRouter.options []) defaultRouter .running
          (removalRun (removalRequest "vlans" .delete "vlan" "id" "7") labContent).2
          "vlans/vlan[id=7]" := by
  have hRemoves : (removalRequest "vlans" .delete "vlan" "id" "7").RemovesEntry .delete
      "vlans/vlan[id=7]" :=
    removesEntry_removalRequest (Or.inl rfl) (by decide +kernel) (by decide +kernel)
  have hSchema : ∀ path ∈ labContent, OnSchema path := onSchema_of_all (by decide +kernel)
  have hParse : parse "vlans/vlan[id=7]" =
      .ok ([bareSegment "vlans"] ++ [⟨"vlan", "id", "7"⟩]) := by decide +kernel
  have hHeld : ∃ path ∈ labContent, Below "vlans/vlan[id=7]" path := by
    refine ⟨text "vlans/vlan[id=7]/id", by decide +kernel, ?_⟩
    show hasPrefix _ _ = true
    decide +kernel
  exact (removal_succeeds_iff (defaultRouter.options []) defaultRouter .running
    (machineWith labContent) labContent rfl hSchema _ .delete "vlans/vlan[id=7]" hRemoves
    [bareSegment "vlans"] ⟨"vlan", "id", "7"⟩ hParse (by decide) hHeld (by decide +kernel)
    (fun _ => CallEnv.quiet) fun _ => rfl).mpr
      (removable_of_checks uniqueKeys_defaultDevice hSchema hParse (by decide) hHeld
        (by decide +kernel) (by decide +kernel) (by decide +kernel) (by decide +kernel)
        (by decide +kernel) (by decide +kernel))

/-- The bare content with an entry of the MAC table of the default device; its age is state. -/
def addressContent : Values :=
  bareContent ∪ Std.ExtTreeMap.ofList
    [(text "mac-table/entry[mac-address=02:00:00:00:00:02]/mac-address",
        Leaf.string "02:00:00:00:00:02"),
      (text "mac-table/entry[mac-address=02:00:00:00:00:02]/vlan-id", .uint16 1),
      (text "mac-table/entry[mac-address=02:00:00:00:00:02]/port", .uint32 1),
      (text "mac-table/entry[mac-address=02:00:00:00:00:02]/type", .string "dynamic"),
      (text "mac-table/entry[mac-address=02:00:00:00:00:02]/permanent", .bool false),
      (text "mac-table/entry[mac-address=02:00:00:00:00:02]/age", .uint32 0)] compare

/-- The delete of the entry is answered with success, and the age that it leaves behind brings the
entry of the boot template back. -/
theorem deleted_address_is_still_there :
    defaultRouter.validate none addressContent = .ok () ∧
      (removalRequest "mac-table" .delete "entry" "mac-address" "02:00:00:00:00:02").RemovesEntry
        .delete "mac-table/entry[mac-address=02:00:00:00:00:02]" ∧
      defaultRouter.validate none
        (without "mac-table/entry[mac-address=02:00:00:00:00:02]" addressContent) = .ok () ∧
      (removalRun (removalRequest "mac-table" .delete "entry" "mac-address" "02:00:00:00:00:02")
        addressContent).1.isOk = true ∧
      hasEntry defaultRouter (removalRun (removalRequest "mac-table" .delete "entry" "mac-address"
        "02:00:00:00:00:02") addressContent).2.memory.running [bareSegment "mac-table"]
        ⟨"entry", "mac-address", "02:00:00:00:00:02"⟩ = true := by
  refine ⟨by decide +kernel, ?_, by decide +kernel, by decide +kernel, by decide +kernel⟩
  exact removesEntry_removalRequest (Or.inl rfl) (by decide +kernel) (by decide +kernel)

end Datatree
end TriadSim
