import TriadSim.Datatree.Leaves
import TriadSim.Datatree.Run
import TriadSim.Live

/-!
# What a read answers

`Read` looks a node up by its path: it builds the children of the parent and picks the one with
the name, and in a list the entry with the value of the key.  The answer has the stored leaves at
or below the node, each of them once.  The name of the key plays no part in the choice of the
entry.  The main results are `readNode_lists` and `readNode_entry`.
-/

namespace TriadSim
namespace Datatree

open Go Library Router Store
open scoped List

/-- The leaves of an answer; no node has no leaves. -/
def answeredLeaves (node : Option DataNode) : List (GoString × Leaf) :=
  leavesOfAll node.toList

/-- The stored paths at or below the node of a path.  The root is above all of them, and a
list without a key is above all of its entries. -/
def AtOrBelow (target path : GoString) : Prop :=
  target = [] ∨ ∃ base last segment rest, parse target = .ok (base ++ [last]) ∧
    parse path = .ok (base ++ segment :: rest) ∧ segment.name = last.name ∧
    (last.key = [] ∨ segment = last)

/-- A path that leads to a node of the schema, whatever its last predicate is. -/
structure Leads (target : GoString) (base : List Segment) (last : Segment) (nodes : List SchemaNode)
    (child : SchemaNode) : Prop where
  parsed : parse target = .ok (base ++ [last])
  below : SchemaBelow base nodes
  child : childNamed nodes last.name = some child

/-- A path that names a node: the root, a container, a leaf, a list or an entry of a list,
with the key of the list. -/
def NamesNode (target : GoString) : Prop :=
  target = [] ∨ ∃ base last nodes child, Leads target base last nodes child ∧
    (last.key = [] ∨ child.node.kind = .list last.key)

/-- A path that names one node: the root, a container, a leaf, or an entry of a list under the
key of the list. -/
def OneNode (target : GoString) : Prop :=
  target = [] ∨ ∃ base last nodes child, Leads target base last nodes child ∧
    checkPredicate last child.node.kind = .ok ()

variable {target : GoString} {base : List Segment} {path : GoString} {r : Router} {stored : Values}
    {results : Std.ExtTreeMap GoString Result} {content : Content}

theorem OneNode.namesNode (hOne : OneNode target) : NamesNode target := by
  rcases hOne with hRoot | ⟨base, last, nodes, child, hLeads, hPredicate⟩
  · exact Or.inl hRoot
  · refine Or.inr ⟨base, last, nodes, child, hLeads, ?_⟩
    cases hKind : child.node.kind with
    | list key =>
      rw [hKind] at hPredicate
      exact Or.inr (by rw [(checkPredicate_list_iff.mp hPredicate).2])
    | container | leaf kind =>
      rw [hKind] at hPredicate
      exact Or.inl ((checkPredicate_inner_iff (by simp)).mp hPredicate)

section Leads

variable {last : Segment} {nodes : List SchemaNode} {child : SchemaNode}
  (hLeads : Leads target base last nodes child)

include hLeads

theorem Leads.parsed_eq {base' : List Segment} {last' : Segment}
    (hParse : parse target = .ok (base' ++ [last'])) : base' = base ∧ last' = last := by
  have hSame := Except.ok.inj (hParse.symm.trans hLeads.parsed)
  obtain ⟨rfl, hLast⟩ := List.append_inj' hSame rfl
  cases hLast
  exact ⟨rfl, rfl⟩

theorem Leads.unique {base' : List Segment} {last' : Segment} {nodes' : List SchemaNode}
    {child' : SchemaNode} (hOther : Leads target base' last' nodes' child') :
    base' = base ∧ last' = last ∧ nodes' = nodes ∧ child' = child := by
  obtain ⟨rfl, rfl⟩ := hLeads.parsed_eq hOther.parsed
  cases hOther.below.symm.trans hLeads.below
  cases hOther.child.symm.trans hLeads.child
  exact ⟨rfl, rfl, rfl, rfl⟩

theorem Leads.atOrBelow_iff :
    AtOrBelow target path ↔ ∃ segment rest, parse path = .ok (base ++ segment :: rest) ∧
      segment.name = last.name ∧ (last.key = [] ∨ segment = last) := by
  constructor
  · rintro (hRoot | ⟨base', last', segment, rest, hParsed, hRest⟩)
    · exact absurd hRoot (path_ne_nil_of_parse_eq_ok hLeads.parsed)
    · obtain ⟨rfl, rfl⟩ := hLeads.parsed_eq hParsed
      exact ⟨segment, rest, hRest⟩
  · rintro ⟨segment, rest, hRest⟩
    exact Or.inr ⟨base, last, segment, rest, hLeads.parsed, hRest⟩

/-- A path below a node goes through the last segment of the node, unless that has no key and
the path has one there. -/
theorem Leads.segment_eq {segment : Segment} {rest : List Segment}
    (hParse : parse path = .ok (base ++ segment :: rest)) (hName : segment.name = last.name)
    (hSegment : last.key = [] ∨ segment = last) (hBare : last.key = [] → segment.key = []) :
    segment = last := by
  rcases hSegment with hNone | hSame
  · rw [eq_bareSegment_of_mem_parse hParse (by simp) (hBare hNone),
      eq_bareSegment_of_mem_parse hLeads.parsed (by simp) hNone, hName]
  · exact hSame

end Leads

/-! ## Paths -/

theorem baseSegments_pathText {rest : List Segment} (hParse : parse path = .ok (base ++ rest)) :
    baseSegments (pathText base) = .ok base := by
  cases base with
  | nil => rfl
  | cons first more =>
    exact baseSegments_of_parse_eq_ok (parse_pathText (List.cons_ne_nil _ _)
      fun segment hSegment => wellFormed_of_mem_parse hParse (List.mem_append_left rest hSegment))

theorem splitLead_of_parse {last : Segment} (hParse : parse path = .ok (base ++ [last])) :
    splitLead path = .ok (pathText base, last) := by
  simp only [splitLead, hParse, bind, Except.bind, List.getLast?_concat, List.dropLast_concat]
  rfl

/-! ## The answer -/

section Read

variable {values : Std.ExtTreeMap GoString Result} {content : Content} {target : GoString}
  {base : List Segment} {last : Segment} {nodes : List SchemaNode} {child : SchemaNode}

/-- The part of a child that an answer shows. -/
def pickEntry (last : Segment) : Option DataNode → Option DataNode
  | some (.list path name key entries) =>
    if last.key = [] then some (.list path name key entries)
    else listEntryNode path name key entries last
  | output => output

/-- `Read` of a path that leads to a node picks from what is built for the node. -/
theorem readNode_of_leads (hRegular : Regular values)
    (hLeads : Leads target base last nodes child) :
    ∃ output, ChildSpec values content (pathText base) base child output ∧
      readNode values target content = .ok (pickEntry last output) := by
  obtain ⟨hParse, hBelow, hChild⟩ := hLeads
  obtain ⟨depth, hDepth, hTree⟩ := exists_treeKeyed hBelow
  obtain ⟨outputs, hBuild, hOutputs⟩ :=
    buildChildren_spec content hRegular.keysFit hDepth hTree (baseSegments_pathText hParse) hBelow
  obtain ⟨output, hSpec, hFilter⟩ :=
    filter_name_eq_toList hOutputs (keyed_of_treeKeyed hTree).nodup hChild
  have hFind : outputs.reduceOption.find? (fun node => node.name = last.name) = output := by
    rw [← List.head?_filter, hFilter]
    cases output <;> rfl
  refine ⟨output, hSpec, ?_⟩
  rw [readNode, if_neg (path_ne_nil_of_parse_eq_ok hParse), splitLead_of_parse hParse]
  show (buildChildren values content deviceLevels (pathText base) >>= _) = _
  rw [hBuild]
  show (match outputs.reduceOption.find? (fun node => decide (node.name = last.name)) with
    | some (.list path name key entries) => _
    | found => _) = _
  rw [hFind]
  unfold pickEntry
  split
  · split <;> rfl
  · rfl

/-- `Read` of the root answers the leaves that are asked for, of those on the schema. -/
theorem readNode_root_onSchema (content : Content) (hKeys : KeysFit values) :
    ∃ node, readNode values [] content = .ok (some node) ∧
      Lists (shown values content) OnSchema node.leaves := by
  have hHere : SchemaBelow [] deviceSchema := rfl
  have hBase : baseSegments [] = .ok [] := rfl
  obtain ⟨depth, hDepth, hTree⟩ := exists_treeKeyed hHere
  obtain ⟨outputs, hBuild, hOutputs⟩ := buildChildren_spec content hKeys hDepth hTree hBase hHere
  refine ⟨.container [] [] outputs.reduceOption, ?_, ?_⟩
  · rw [readNode, if_pos rfl, hBuild]
    rfl
  · exact lists_reduceOption hOutputs (keyed_of_treeKeyed hTree).nodup

/-- `Read` of the root answers every leaf that is asked for. -/
theorem readNode_root (hRegular : Regular values) :
    ∃ node, readNode values [] content = .ok (some node) ∧
      Lists (shown values content) (fun _ => True) node.leaves := by
  obtain ⟨node, hRead, hLists⟩ := readNode_root_onSchema content hRegular.keysFit
  refine ⟨node, hRead, hLists.congr fun path hShown => ?_⟩
  exact ⟨fun _ => trivial, fun _ => hRegular path (mem_of_isSome_shown hShown)⟩

variable {path key : GoString}

/-- The entry that is picked has the leaves of the instance with the value of the key. -/
theorem lists_listEntryNode {name : GoString} {instances : List ListEntry} {entries : List ListNode}
    (hSpec : EntriesSpec values content base child key instances entries) :
    Lists (shown values content)
      (Under (base ++ [⟨child.node.name, key, last.value⟩]) child.children)
      (answeredLeaves (listEntryNode path name key entries last)) := by
  unfold listEntryNode
  cases hFind : entries.find? fun entry => entry.keyValue = last.value with
  | none =>
    refine Lists.empty fun stored hUnder => ?_
    cases hShown : shown values content stored with
    | none => rfl
    | some value =>
      have hStored : stored ∈ values := mem_of_isSome_shown (by rw [hShown]; rfl)
      obtain ⟨entry, hEntry, hValue⟩ := hSpec.covers stored hStored last.value hUnder
      obtain ⟨built, hBuilt, hEach⟩ := exists_of_mem_right hSpec.each.flip hEntry
      have hOther := List.find?_eq_none.mp hFind built hBuilt
      exact absurd (hEach.keyValue.trans hValue) (by simpa using hOther)
  | some built =>
    have hValue : built.keyValue = last.value := by simpa using List.find?_some hFind
    obtain ⟨entry, _, hEach⟩ :=
      exists_of_mem_right hSpec.each (List.mem_of_find?_eq_some hFind)
    have hLists := hEach.lists
    rw [← hEach.keyValue, hValue] at hLists
    obtain ⟨at', keyValue, children⟩ := built
    simpa [answeredLeaves, leavesOfAll, DataNode.leaves, leavesOfEntries, ListNode.leaves]
      using hLists

/-- `Read` of an entry of a list, with any name for the key: the leaves of the entry with the
value. -/
theorem readNode_entry (content : Content) (hRegular : Regular values)
    (hLeads : Leads target base last nodes child) (hKind : child.node.kind = .list key)
    (hKeyed : last.key ≠ []) :
    ∃ node, readNode values target content = .ok node ∧
      Lists (shown values content)
        (Under (base ++ [⟨child.node.name, key, last.value⟩]) child.children)
        (answeredLeaves node) := by
  obtain ⟨output, hSpec, hRead⟩ := readNode_of_leads hRegular hLeads
  obtain ⟨path, entries, instances, rfl, hEntries⟩ := hSpec.list key hKind
  refine ⟨_, hRead, ?_⟩
  rw [pickEntry, if_neg hKeyed]
  exact lists_listEntryNode hEntries

/-- `Read` of a path without a last predicate: the leaves at or below the child. -/
theorem readNode_bare (hRegular : Regular values) (hLeads : Leads target base last nodes child)
    (hBare : last.key = []) :
    ∃ node, readNode values target content = .ok node ∧
      Lists (shown values content) (UnderChild base child) (answeredLeaves node) := by
  obtain ⟨output, hSpec, hRead⟩ := readNode_of_leads hRegular hLeads
  have hPick : pickEntry last output = output := by
    unfold pickEntry
    split
    · rw [if_pos hBare]
    · rfl
  rw [hPick] at hRead
  exact ⟨output, hRead, hSpec.lists⟩

/-- The stored paths below a schema node are those that go through it. -/
theorem Regular.underChild_iff (hRegular : Regular values)
    (hLeads : Leads target base last nodes child) (hPath : path ∈ values) :
    UnderChild base child path ↔
      ∃ segment rest, parse path = .ok (base ++ segment :: rest) ∧ segment.name = last.name := by
  obtain ⟨_, hName⟩ := childNamed_eq_some hLeads.child
  constructor
  · rintro ⟨segment, rest, hParse, hSame, _⟩
    exact ⟨segment, rest, hParse, hSame.trans hName⟩
  · rintro ⟨segment, rest, hParse, hSame⟩
    obtain ⟨other, hOther, hPredicate, hLeaf⟩ := hRegular.leafBelow hLeads.below hPath hParse
    rw [hSame] at hOther
    cases hOther.symm.trans hLeads.child
    exact ⟨segment, rest, hParse, hSame.trans hName.symm, hPredicate, hLeaf⟩

/-- The stored paths below an entry of a list are those that go through it. -/
theorem Regular.under_entry_iff (hRegular : Regular values)
    (hLeads : Leads target base last nodes child) {value : GoString} (hPath : path ∈ values)
    (hKind : child.node.kind = .list key) :
    Under (base ++ [⟨child.node.name, key, value⟩]) child.children path ↔
      ∃ rest, parse path = .ok (base ++ ⟨child.node.name, key, value⟩ :: rest) := by
  obtain ⟨_, hName⟩ := childNamed_eq_some hLeads.child
  constructor
  · rintro ⟨rest, hParse, _⟩
    exact ⟨rest, by simpa using hParse⟩
  · rintro ⟨rest, hParse⟩
    obtain ⟨other, hOther, _, hLeaf⟩ := hRegular.leafBelow hLeads.below hPath hParse
    rw [hName] at hOther
    cases hOther.symm.trans hLeads.child
    rw [hKind] at hLeaf
    exact ⟨rest, by simpa using hParse, hLeaf⟩

/-- `Read` of a path that names a node answers the stored leaves at or below the node that are
asked for, each of them once. -/
theorem readNode_lists (content : Content) (hRegular : Regular values)
    (hNames : NamesNode target) :
    ∃ node, readNode values target content = .ok node ∧
      Lists (shown values content) (AtOrBelow target) (answeredLeaves node) := by
  rcases hNames with rfl | ⟨base, last, nodes, child, hLeads, hKey⟩
  · obtain ⟨node, hRead, hLists⟩ := readNode_root hRegular
    refine ⟨some node, hRead, ?_⟩
    have hAll : Lists (shown values content) (AtOrBelow []) node.leaves :=
      hLists.congr fun path _ => ⟨fun _ => Or.inl rfl, fun _ => trivial⟩
    simpa [answeredLeaves, leavesOfAll] using hAll
  · by_cases hBare : last.key = []
    · obtain ⟨node, hRead, hLists⟩ := readNode_bare hRegular hLeads hBare
      refine ⟨node, hRead, hLists.congr fun path hShown => ?_⟩
      rw [hRegular.underChild_iff hLeads (mem_of_isSome_shown hShown), hLeads.atOrBelow_iff]
      simp only [hBare, true_or, and_true]
    · have hKind : child.node.kind = .list last.key := hKey.resolve_left hBare
      obtain ⟨node, hRead, hLists⟩ := readNode_entry content hRegular hLeads hKind hBare
      obtain ⟨_, hName⟩ := childNamed_eq_some hLeads.child
      refine ⟨node, hRead, hLists.congr fun path hShown => ?_⟩
      rw [hRegular.under_entry_iff hLeads (mem_of_isSome_shown hShown) hKind, hName,
        hLeads.atOrBelow_iff]
      constructor
      · rintro ⟨rest, hParse⟩
        exact ⟨last, rest, hParse, rfl, Or.inr rfl⟩
      · rintro ⟨segment, rest, hParse, _, hSegment⟩
        rw [hSegment.resolve_left hBare] at hParse
        exact ⟨rest, hParse⟩

end Read

/-! ## `Read` that runs alone -/

/-- The described paths are those of the content. -/
theorem mem_of_describeAll (hResults : r.describeAll stored = .ok results)
    (hPath : path ∈ results) : path ∈ stored := by
  rw [FinMap.mem_iff_isSome, Option.isSome_iff_exists] at hPath
  obtain ⟨found, hFound⟩ := hPath
  obtain ⟨value, _, _, hValue, _⟩ := described_of_describeAll_eq_ok hResults hFound
  rw [FinMap.mem_iff_isSome, hValue]
  rfl

/-- The described leaves of a content whose paths follow the schema. -/
theorem regular_of_describeAll (hResults : r.describeAll stored = .ok results)
    (hStored : ∀ path ∈ stored, OnSchema path) : Regular results :=
  fun path hPath => hStored path (mem_of_describeAll hResults hPath)

/-- What is shown is what the content holds. -/
theorem stored_of_shown (hResults : r.describeAll stored = .ok results) {leaf : Leaf}
    (hShown : shown results content path = some leaf) : stored[path]? = some leaf := by
  unfold shown at hShown
  cases hFound : results[path]? with
  | none =>
    rw [hFound] at hShown
    cases hShown
  | some found =>
    rw [hFound] at hShown
    obtain ⟨value, _, _, hValue, _, hSame, _⟩ := described_of_describeAll_eq_ok hResults hFound
    dsimp only at hShown
    split at hShown
    · cases hShown
      rw [hValue, hSame]
    · cases hShown

/-- `Read` of a datastore that is not cancelled answers from what the datastore holds. -/
theorem ensures_live_read {json : Json} {opts : Options} {machine : Machine json} {ds : Datastore}
    (hStored : machine.memory.datastore ds = .ok stored)
    (hResults : r.describeAll stored = .ok results) :
    (read r ds target content).LiveEnsures opts (fun found after =>
      after = machine ∧ found = readNode results target content) machine := by
  refine ensures_live_checkCtx (ensures_andThen (Program.Ensures.bind
    (ensures_live_values hStored) ?_))
  rintro described after ⟨rfl, rfl⟩
  rw [hResults]
  refine ⟨?_, fun err hError => by cases hError⟩
  intro found hFound
  cases hFound
  exact ⟨rfl, rfl⟩

/-- A `Read` that succeeds, whatever its surroundings are, answers from what the datastore
holds. -/
theorem ensures_read {json : Json} {opts : Options} {machine : Machine json} {ds : Datastore} :
    (read r ds target content).Ensures opts (fun found after => after = machine ∧
      ∀ node, found = .ok node → ∃ stored results, machine.memory.datastore ds = .ok stored ∧
        r.describeAll stored = .ok results ∧ readNode results target content = .ok node)
      machine := by
  have hFailed : ∀ err : Err, machine = machine ∧
      ∀ node, (Except.error err : Except Err (Option DataNode)) = .ok node →
        ∃ stored results, machine.memory.datastore ds = .ok stored ∧
          r.describeAll stored = .ok results ∧ readNode results target content = .ok node :=
    fun err => ⟨rfl, fun node hOk => by cases hOk⟩
  refine ensures_checkCtx hFailed (ensures_andThen (ensures_mapError (ensures_values ?_ ?_)))
  · intro stored results hStored hResults
    refine ⟨fun values hValues => ?_, fun err hError => by cases hError⟩
    cases hValues
    exact ⟨rfl, fun node hRead => ⟨stored, results, hStored, hResults, hRead⟩⟩
  · intro err
    exact ⟨fun values hValues => (by cases hValues), fun other _ => hFailed other⟩

end Datatree
end TriadSim
