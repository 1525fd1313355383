import TriadSim.Datatree.Shape

/-!
# The order of list entries

`sortEntries` compares two keys as numbers when both are numbers and as texts otherwise.  Texts
are a linear order, and so are numbers; the two together are not, so a list with a numeric key is
in order when all of its keys are numbers.  The main result, about a read of the whole datastore,
is `root_read_lists_stored_leaves`.
-/

namespace TriadSim
namespace Datatree

open Go Library Router Store

/-! ## Keys -/

/-- The number that a key is, if it is one. -/
def keyNumber (key : GoString) : Option Float64 :=
  (parseFloat key).filter fun x => !x.isNaN

/-- The key of a list with keys of this kind is compared as a number. -/
def numericKey (kind : NodeKind) : Bool :=
  kind ≠ .leaf .string && kind ≠ .leaf .bool

/-- The keys of a list are in order: as texts, or as numbers if they are numbers. -/
def KeysOrdered (kind : NodeKind) (keys : List GoString) : Prop :=
  if numericKey kind then
    (∀ key ∈ keys, (keyNumber key).isSome = true) →
      keys.Pairwise fun first second => ∀ x ∈ keyNumber first, ∀ y ∈ keyNumber second,
        Float64.le x y = true
  else keys.Pairwise fun first second => first ≤ second

/-- The place of a number among the numbers. -/
def keyRank (key : GoString) : Int :=
  (keyNumber key).elim 0 Float64.rank

theorem keyNumber_eq_some_iff {key : GoString} {x : Float64} :
    keyNumber key = some x ↔ parseFloat key = some x ∧ x.isNaN = false := by
  rw [keyNumber, Option.filter_eq_some_iff, Bool.not_eq_true']

/-- Two numbers are compared by their places. -/
theorem entryLess_eq_false_iff {first second : ListEntry}
    (hFirst : (keyNumber first.key).isSome = true)
    (hSecond : (keyNumber second.key).isSome = true) :
    entryLess true second first = false ↔ keyRank first.key ≤ keyRank second.key := by
  obtain ⟨x, hX⟩ := Option.isSome_iff_exists.mp hFirst
  obtain ⟨y, hY⟩ := Option.isSome_iff_exists.mp hSecond
  obtain ⟨hParseX, hNumX⟩ := keyNumber_eq_some_iff.mp hX
  obtain ⟨hParseY, hNumY⟩ := keyNumber_eq_some_iff.mp hY
  unfold entryLess keyRank
  rw [hParseX, hParseY, hX, hY]
  simp [Float64.lt, hNumX, hNumY]

theorem pairwise_keyRank {entries : List ListEntry}
    (hNumbers : ∀ entry ∈ entries, (keyNumber entry.key).isSome = true) :
    (entries.insertionSort fun first second => entryLess true second first = false).Pairwise
      fun first second => keyRank first.key ≤ keyRank second.key := by
  -- The places of the entries are sorted as the entries are.
  have hMap : (entries.insertionSort fun first second => entryLess true second first = false).map
      (fun entry => keyRank entry.key) =
        (entries.map fun entry => keyRank entry.key).insertionSort (· ≤ ·) := by
    refine List.map_insertionSort _ _ _ _ ?_
    intro first hFirst second hSecond
    exact entryLess_eq_false_iff (hNumbers first hFirst) (hNumbers second hSecond)
  rw [← List.pairwise_map (f := fun entry : ListEntry => keyRank entry.key)
    (R := fun x y : Int => x ≤ y), hMap]
  exact List.pairwise_insertionSort _ _

theorem pairwise_text (entries : List ListEntry) :
    (entries.insertionSort fun first second => entryLess false second first = false).Pairwise
      fun first second => first.key ≤ second.key := by
  have hTotal : Std.Total fun first second : ListEntry =>
      entryLess false second first = false := by
    refine ⟨fun first second => ?_⟩
    simp only [entryLess, decide_eq_false_iff_not, List.not_lt]
    exact List.le_total first.key second.key
  have hTrans : IsTrans ListEntry fun first second => entryLess false second first = false := by
    refine ⟨fun first second third hFirst hSecond => ?_⟩
    simp only [entryLess, decide_eq_false_iff_not, List.not_lt] at hFirst hSecond ⊢
    exact List.le_trans hFirst hSecond
  refine (List.pairwise_insertionSort _ entries).imp ?_
  intro first second hLess
  simpa [entryLess] using hLess

theorem keysOrdered_sortEntries (kind : NodeKind) (entries : List ListEntry) :
    KeysOrdered kind ((sortEntries kind entries).map ListEntry.key) := by
  unfold KeysOrdered sortEntries
  dsimp only
  cases hNumeric : numericKey kind with
  | false =>
    have hFlag : (decide (kind ≠ .leaf .string) && decide (kind ≠ .leaf .bool)) = false := hNumeric
    rw [hFlag, if_neg (by simp), List.pairwise_map]
    exact pairwise_text entries
  | true =>
    have hFlag : (decide (kind ≠ .leaf .string) && decide (kind ≠ .leaf .bool)) = true := hNumeric
    rw [hFlag, if_pos rfl]
    intro hNumbers
    rw [List.pairwise_map]
    have hEntries : ∀ entry ∈ entries, (keyNumber entry.key).isSome = true := by
      intro entry hEntry
      exact hNumbers entry.key
        (List.mem_map_of_mem ((List.mem_insertionSort _).mpr hEntry))
    refine (pairwise_keyRank hEntries).imp ?_
    intro first second hRank x hX y hY
    rw [keyRank, keyRank, hX, hY] at hRank
    obtain ⟨_, hNumX⟩ := keyNumber_eq_some_iff.mp hX
    obtain ⟨_, hNumY⟩ := keyNumber_eq_some_iff.mp hY
    simpa [Float64.le, hNumX, hNumY] using hRank

/-! ## Trees -/

/-- Every list of a tree that stands at some schema nodes has its entries in order. -/
inductive Arranged : List SchemaNode → DataNode → Prop where
  | leaf {nodes : List SchemaNode} (path name : GoString) (kind : LeafKind) (value : Leaf) :
      Arranged nodes (.leaf path name kind value)
  | container {nodes : List SchemaNode} {child : SchemaNode} {children : List DataNode}
      (path : GoString) (hChild : childNamed nodes child.node.name = some child)
      (hChildren : ∀ inner ∈ children, Arranged child.children inner) :
      Arranged nodes (.container path child.node.name children)
  | list {nodes : List SchemaNode} {child keyChild : SchemaNode} {key : GoString}
      {entries : List ListNode} (path : GoString)
      (hChild : childNamed nodes child.node.name = some child)
      (hKind : child.node.kind = .list key)
      (hKeyChild : childNamed child.children key = some keyChild)
      (hOrdered : KeysOrdered keyChild.node.kind (entries.map ListNode.keyValue))
      (hChildren : ∀ entry ∈ entries, ∀ inner ∈ entry.children, Arranged child.children inner) :
      Arranged nodes (.list path child.node.name key entries)

section Build

variable {values : Std.ExtTreeMap GoString Result} {content : Content} {lead : GoString}
  {base : List Segment} {nodes : List SchemaNode} {child : SchemaNode}
  {build : GoString → Except Err (List DataNode)}

/-- What `build` is to answer one level below. -/
def Arranges (build : GoString → Except Err (List DataNode)) : Prop :=
  ∀ lead base nodes built, baseSegments lead = .ok base → SchemaBelow base nodes →
    build lead = .ok built → ∀ node ∈ built, Arranged nodes node

section Child

variable (hRegular : Regular values) (hBuild : Arranges build)
    (hBase : baseSegments lead = .ok base)
  (hBelow : SchemaBelow base nodes) (hChild : childNamed nodes child.node.name = some child)

include hRegular hBuild hBase hBelow hChild

/-- The entries of a list are built in the order of `sortEntries`. -/
theorem arranged_buildEntries {key : GoString} (hKind : child.node.kind = .list key)
    {entries : List ListNode}
    (hEntries : buildEntries values content build lead child.node.name key = .ok entries)
    (path : GoString) : Arranged nodes (.list path child.node.name key entries) := by
  obtain ⟨keyChild, kind, hKeyChild, hLeaf, hPairs⟩ :=
    forall₂_buildEntries hRegular hBase hBelow hChild hKind hEntries
  refine .list path hChild hKind hKeyChild ?_ ?_
  · have hKeys : (sortEntries keyChild.node.kind (instancesOf values lead child.node.name)).map
        ListEntry.key = entries.map ListNode.keyValue := by
      rw [← List.forall₂_eq_eq_eq, List.forall₂_map_left_iff, List.forall₂_map_right_iff]
      refine hPairs.imp fun found built hEntry => ?_
      obtain ⟨_, _, hBuilt⟩ := bind_eq_ok_iff.mp hEntry
      cases hBuilt
      rfl
    rw [← hKeys]
    exact keysOrdered_sortEntries keyChild.node.kind _
  · intro entry hEntry node hNode
    obtain ⟨found, hSorted, hBuilding⟩ := exists_of_mem_right hPairs hEntry
    obtain ⟨hForm, hSlash, hPath⟩ := hRegular.keysFit.instance_segment hBase hBelow hChild hKind
      ((List.perm_insertionSort _ _).mem_iff.mp hSorted)
    obtain ⟨inner, hInner, hBuilt⟩ := bind_eq_ok_iff.mp hBuilding
    cases hBuilt
    rcases List.mem_append.mp hNode with hKey | hOther
    -- The key leaf comes first, and the rest is what is built below the entry.
    · rw [hLeaf, keyNode, leafNode_eq_map, Option.mem_toList, Option.map_eq_some_iff] at hKey
      obtain ⟨value, _, rfl⟩ := hKey
      exact .leaf _ _ _ _
    · exact hBuild _ _ _ _ (hPath ▸ baseSegments_joinPath hBase hForm hSlash)
        (hBelow.entry hBase hChild hKind _) hInner node (List.mem_filter.mp hOther).1

theorem arranged_buildChild {built : DataNode}
    (hBuilt : buildChild values content build lead child.node = .ok (some built)) :
    Arranged nodes built := by
  unfold buildChild at hBuilt
  dsimp only at hBuilt
  cases hKind : child.node.kind with
  | leaf kind =>
    rw [hKind] at hBuilt
    have hLeaf := Except.ok.inj hBuilt
    rw [leafNode_eq_map] at hLeaf
    obtain ⟨value, _, rfl⟩ := Option.map_eq_some_iff.mp hLeaf
    exact .leaf _ _ _ _
  | container =>
    rw [hKind] at hBuilt
    obtain ⟨inner, hInner, hNode⟩ := bind_eq_ok_iff.mp hBuilt
    cases hNode
    obtain ⟨hDeeper, hUnder⟩ := hBelow.container hBase hChild hKind
    exact .container _ hChild (hBuild _ _ _ _ hDeeper hUnder hInner)
  | list key =>
    rw [hKind] at hBuilt
    obtain ⟨entries, hEntries, hNode⟩ := bind_eq_ok_iff.mp hBuilt
    cases hNode
    exact arranged_buildEntries hRegular hBuild hBase hBelow hChild hKind hEntries _

end Child

theorem arranges_buildChildren (hRegular : Regular values) (levels : Nat) :
    Arranges (buildChildren values content levels) := by
  induction levels with
  | zero =>
    intro lead base nodes built _ _ hBuilt
    cases hBuilt
  | succ levels ih =>
    intro lead base nodes built hBase hBelow hBuilt node hNode
    obtain ⟨schema, hSchema, hBuilt⟩ := bind_eq_ok_iff.mp hBuilt
    cases hSchema.symm.trans (childrenOf_of_schemaBelow hBase hBelow)
    obtain ⟨outputs, hOutputs, hReduced⟩ := bind_eq_ok_iff.mp hBuilt
    cases hReduced
    obtain ⟨depth, _, hTree⟩ := exists_treeKeyed hBelow
    have hPairs := mapM_eq_ok_iff.mp hOutputs
    rw [List.forall₂_map_left_iff] at hPairs
    obtain ⟨child, hChild, hOutput⟩ :=
      exists_of_mem_right hPairs (List.reduceOption_mem_iff.mp hNode)
    exact arranged_buildChild hRegular ih hBase hBelow
      (childNamed_of_mem (keyed_of_treeKeyed hTree).nodup hChild) hOutput

end Build

/-! ## The read of a whole datastore -/

/-- A request for some content asks for a leaf. -/
def Content.Asks (content : Content) (isState : Bool) : Prop :=
  match content with
  | .all => True
  | .config => isState = false
  | .nonconfig => isState = true

theorem selected_iff_asks {found : Result} {content : Content} {isState : Bool}
    (hWritable : found.writable = !isState) :
    selected found content = true ↔ content.Asks isState := by
  unfold selected Content.Asks
  rw [hWritable]
  cases content <;> cases isState <;> simp [Content.includeConfig, Content.includeState]

theorem shown_eq_some_iff {r : Router} {stored : Values} {results : Std.ExtTreeMap GoString Result}
    (hResults : r.describeAll stored = .ok results) {content : Content} {path : GoString}
    {leaf : Leaf} : shown results content path = some leaf ↔
      stored[path]? = some leaf ∧ content.Asks (r.isState path) := by
  obtain ⟨hSome, hNone⟩ := FinMap.traverse_eq_ok_image hResults path
  unfold shown
  cases hStored : stored[path]? with
  | none =>
    rw [hNone hStored]
    simp
  | some value =>
    obtain ⟨found, _, hFound⟩ := hSome value hStored
    obtain ⟨_, _, readOnly, hValue, hLocate, hSame, hWritable⟩ :=
      described_of_describeAll_eq_ok hResults hFound
    rw [hStored, Option.some.injEq] at hValue
    rw [hFound, isState_of_locate_eq_ok hLocate, ← selected_iff_asks hWritable, hValue]
    dsimp only
    rw [hSame]
    split
    · next hAsked => simp [hAsked]
    · next hOther => simp [hOther]

/-- A read of the whole datastore has each stored leaf that it is asked for once, at its path and
with its value, and no other leaf; the leaves stand where the schema has them, and the entries of
every list are in the order of their keys. -/
theorem root_read_lists_stored_leaves {json : Json} (opts : Options) (r : Router)
    (machine : Machine json) (ds : Datastore) {stored : Values}
    (hStored : machine.memory.datastore ds = .ok stored)
    (hSchema : ∀ path ∈ stored, OnSchema path) {results : Std.ExtTreeMap GoString Result}
    (hResolves : r.describeAll stored = .ok results) (content : Content) (env : Nat → CallEnv)
    (hLive : ∀ index, (env index).ctx = none) :
    ∃ children, (read r ds [] content).run opts env machine =
        (.ok (some (.container [] [] children)), machine) ∧
      (∀ path leaf, (path, leaf) ∈ leavesOfAll children ↔
        stored[path]? = some leaf ∧ content.Asks (r.isState path)) ∧
      ((leavesOfAll children).map Prod.fst).Nodup ∧
      ∀ node ∈ children, Grown results content [] [] deviceSchema node ∧
        Arranged deviceSchema node := by
  have hRegular : Regular results := regular_of_describeAll hResolves hSchema
  obtain ⟨node, hRead, hLists⟩ := @readNode_root _ content hRegular
  rw [readNode, if_pos rfl] at hRead
  obtain ⟨children, hBuild, hNode⟩ := bind_eq_ok_iff.mp hRead
  cases hNode
  obtain ⟨hMachine, hFound⟩ :=
    Prog.LiveEnsures.run (@ensures_live_read [] _ _ _ content _ opts _ _ hStored hResolves) env
      hLive
  have hRoot : SchemaBelow [] deviceSchema := rfl
  refine ⟨children, Prod.ext ?_ hMachine, ?_, hLists.nodup, ?_⟩
  · rw [hFound, readNode, if_pos rfl, hBuild]
    rfl
  · intro path leaf
    have hMem := hLists.mem_iff path leaf
    rw [shown_eq_some_iff hResolves] at hMem
    simpa [DataNode.leaves] using hMem
  · intro inner hInner
    exact ⟨(builds_buildChildren hRegular deviceLevels [] [] deviceSchema children rfl hRoot
      hBuild).1 inner hInner, arranges_buildChildren hRegular deviceLevels [] [] deviceSchema
      children rfl hRoot hBuild inner hInner⟩

/-- The names of some VLANs. -/
def vlanNames (keys : List GoString) : Values :=
  Std.ExtTreeMap.ofList (keys.map fun key =>
    (text "vlans/vlan[id=" ++ key ++ text "]/name", Leaf.string "lab")) compare

/-- A check of all paths of a content. -/
theorem onSchema_of_all {content : Values}
    (hAll : (content.keys.all fun path => decide (OnSchema path)) = true) (path : GoString)
    (hPath : path ∈ content) : OnSchema path := by
  rw [List.all_eq_true] at hAll
  exact of_decide_eq_true (hAll path (Std.ExtTreeMap.mem_keys.mpr hPath))

theorem read_of_numbered_vlans :
    ∃ results children, (read defaultRouter .running [] .config).run (defaultRouter.options [])
        (fun _ => CallEnv.quiet) (machineWith (vlanNames ["100", "20", "3"])) =
        (.ok (some (.container [] [] children)), machineWith (vlanNames ["100", "20", "3"])) ∧
      (∀ path leaf, (path, leaf) ∈ leavesOfAll children ↔
        (vlanNames ["100", "20", "3"])[path]? = some leaf ∧
          Content.config.Asks (defaultRouter.isState path)) ∧
      ((leavesOfAll children).map Prod.fst).Nodup ∧
      ∀ node ∈ children, Grown results .config [] [] deviceSchema node ∧
        Arranged deviceSchema node := by
  obtain ⟨results, hResults⟩ := exists_eq_ok_of_isOk
    (show (defaultRouter.describeAll (vlanNames ["100", "20", "3"])).isOk = true by decide +kernel)
  obtain ⟨children, hFacts⟩ := root_read_lists_stored_leaves (defaultRouter.options [])
    defaultRouter (machineWith (vlanNames ["100", "20", "3"])) .running rfl
    (onSchema_of_all (by decide +kernel)) hResults .config (fun _ => CallEnv.quiet) fun _ => rfl
  exact ⟨results, children, hFacts⟩

/-- The keys of the VLANs that a read has answered, in their order. -/
def vlanKeys : Except Err (Option DataNode) → List GoString
  | .ok (some root) =>
    (root.children.filter fun node => node.name = text "vlans").flatMap fun vlans =>
      vlans.children.flatMap fun
        | .list _ _ _ entries => entries.map ListNode.keyValue
        | _ => []
  | _ => []

/-- With a key that is no number the numbers are not in order, and the texts are not either. -/
theorem vlan_of_no_number_breaks_order :
    (∀ path ∈ vlanNames ["100", "15x", "20", "3"], OnSchema path) ∧
      (defaultRouter.describeAll (vlanNames ["100", "15x", "20", "3"])).isOk = true ∧
      vlanKeys ((read defaultRouter .running [] .all).run (defaultRouter.options [])
        (fun _ => CallEnv.quiet) (machineWith (vlanNames ["100", "15x", "20", "3"]))).1 =
        [text "100", text "15x", text "3", text "20"] ∧
      keyRank "20" < keyRank "100" ∧ text "20" < text "3" := by
  refine ⟨onSchema_of_all (by decide +kernel), ?_⟩
  decide +kernel

end Datatree
end TriadSim
