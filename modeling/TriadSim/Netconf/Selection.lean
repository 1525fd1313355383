import TriadSim.Netconf.FilterNames

/-!
# What a subtree filter selects

The rules of a subtree filter, as `docs/protocols/NETCONF.md` gives them: an element without
children selects its whole subtree, an element with children selects what these select, the text
of a leaf element is the value the leaf must have, and the text of a key element inside of a list
element is the key of the entry that the list element selects.  Key leaves of selected entries
come with them.

Several elements of one name select what each of them selects.  `pruneNodes` takes the first one
only (`mem_pruneNodes`); the two readings of a filter share one definition.
-/

namespace TriadSim
namespace Netconf

open Datatree Go Library Router Store

/-- A reading of a filter: which elements of a level speak for a node, and which elements inside
of a list element speak for the key of an entry. -/
structure Reading where
  named : List FilterNode → GoString → List FilterNode
  keyed : List FilterNode → GoString → List FilterNode

namespace Reading

/-- All elements of the name, and all elements that give the key. -/
def every : Reading where
  named := fun elements name => elements.filter fun element => element.name = name
  keyed := fun elements key =>
    elements.filter fun element => element.name = key && element.text.isSome

/-- The first element of the name, and the first element that gives the key. -/
def first : Reading where
  named := fun elements name => (elements.find? fun element => element.name = name).toList
  keyed := fun elements key =>
    (elements.find? fun element => element.name = key && element.text.isSome).toList

variable (reading : Reading)

/-- The levels inside of a node: a level without elements selects the whole subtree. -/
def levels (elements : List FilterNode) (name : GoString) : List (List FilterNode) :=
  if elements.isEmpty then [[]] else (reading.named elements name).map FilterNode.children

/-- A list element selects an entry: it gives no key, or the key of the entry. -/
def picks (elements : List FilterNode) (key : GoString) (children : List DataNode) : Bool :=
  (reading.keyed elements key).isEmpty ||
    (reading.keyed elements key).any fun element => element.keyMatches key children

mutual

/-- The leaves of a node that the elements of a level select. -/
def selection (elements : List FilterNode) : DataNode → List (GoString × Leaf)
  | .leaf path name kind value =>
    if elements.isEmpty || (reading.named elements name).any fun element =>
        element.accepts kind value then [(path, value)]
    else []
  | .container _ name children =>
    (reading.levels elements name).flatMap fun inner => selectionOfAll inner children
  | .list _ name key entries =>
    (reading.levels elements name).flatMap fun inner => selectionOfEntries inner key entries

def selectionOfAll (elements : List FilterNode) : List DataNode → List (GoString × Leaf)
  | [] => []
  | node :: rest => selection elements node ++ selectionOfAll elements rest

/-- The leaves of the entries that a list element with these children selects. -/
def selectionOfEntries (elements : List FilterNode) (key : GoString) :
    List ListNode → List (GoString × Leaf)
  | [] => []
  | .mk _ _ children :: rest =>
    (if reading.picks elements key children then selectionOfEntry elements key children
      else []) ++ selectionOfEntries elements key rest

/-- The key leaf of a selected entry, and what the list element selects of its other
children. -/
def selectionOfEntry (elements : List FilterNode) (key : GoString) :
    List DataNode → List (GoString × Leaf)
  | [] => []
  | child :: rest =>
    (if child.name = key then child.leaves else selection elements child) ++
      selectionOfEntry elements key rest

end

theorem levels_of_ne_nil {elements : List FilterNode} (hSome : elements ≠ []) (name : GoString) :
    reading.levels elements name = (reading.named elements name).map FilterNode.children := by
  rw [levels, if_neg (by simpa using hSome)]

end Reading

/-! ## `pruneNodes` reads the first elements -/

theorem entrySelected_eq_picks (node : FilterNode) (children : List DataNode) (key : GoString) :
    entrySelected (some node) children key = Reading.first.picks node.children key children := by
  simp only [entrySelected, Reading.picks, Reading.first]
  cases node.children.find? fun child => child.name = key && child.text.isSome with
  | none => rfl
  | some child => simp

namespace FilterLevel

/-- The elements that narrow a level. -/
def elements (level : FilterLevel) : List FilterNode :=
  if level.active then level.nodes else []

theorem selectsAll_iff (level : FilterLevel) : level.selectsAll = level.elements.isEmpty := by
  obtain ⟨active, nodes⟩ := level
  cases active <;> simp [selectsAll, elements]

/-- What `child` finds.  A level without elements has a level without elements inside, and any
other takes the first element of the name. -/
theorem child_cases (level : FilterLevel) (name : GoString) :
    (level.elements = [] ∧ level.child name = some (none, inactive)) ∨
      (level.elements ≠ [] ∧ Reading.first.named level.elements name = [] ∧
        level.child name = none) ∨
      ∃ node, level.elements ≠ [] ∧ Reading.first.named level.elements name = [node] ∧
        level.child name = some (some node, ⟨true, node.children⟩) := by
  by_cases hEmpty : level.elements = []
  · refine .inl ⟨hEmpty, ?_⟩
    rw [child, selectsAll_iff, hEmpty]
    rfl
  · have hNodes : level.nodes = level.elements := by
      unfold elements at hEmpty ⊢
      split
      · rfl
      · next hOff => exact absurd (if_neg hOff) hEmpty
    have hChild : level.child name = (level.elements.find? fun node => node.name = name).map
        fun node => (some node, ⟨true, node.children⟩) := by
      rw [child, selectsAll_iff, if_neg (by simpa using hEmpty), hNodes]
    rw [hChild]
    unfold Reading.first
    cases hFind : level.elements.find? fun node => node.name = name with
    | none => exact .inr (.inl ⟨hEmpty, by simp [hFind], rfl⟩)
    | some node => exact .inr (.inr ⟨node, hEmpty, by simp [hFind], rfl⟩)

/-- What `child` finds for an inner node is the one level inside, if there is one. -/
theorem child_levels (level : FilterLevel) (name : GoString) :
    (Reading.first.levels level.elements name = [] ∧ level.child name = none) ∨
      ∃ node inner, Reading.first.levels level.elements name = [inner.elements] ∧
        level.child name = some (node, inner) ∧ ∀ children key,
          entrySelected node children key = Reading.first.picks inner.elements key children := by
  obtain ⟨hEmpty, hChild⟩ | ⟨hSome, hNamed, hChild⟩ | ⟨node, hSome, hNamed, hChild⟩ :=
    level.child_cases name
  · refine .inr ⟨none, inactive, ?_, hChild, fun _ _ => rfl⟩
    rw [hEmpty]
    rfl
  · exact .inl ⟨by rw [Reading.levels_of_ne_nil _ hSome, hNamed, List.map_nil], hChild⟩
  · refine .inr ⟨some node, ⟨true, node.children⟩, ?_, hChild, entrySelected_eq_picks node⟩
    rw [Reading.levels_of_ne_nil _ hSome, hNamed]
    rfl

end FilterLevel

theorem append_subset_append {α : Type} {first second more other : List α}
    (hFirst : first ⊆ more) (hSecond : second ⊆ other) : first ++ second ⊆ more ++ other :=
  List.append_subset.mpr ⟨List.subset_append_of_subset_left other hFirst,
    List.subset_append_of_subset_right more hSecond⟩

theorem leavesOfAll_append (nodes more : List DataNode) :
    leavesOfAll (nodes ++ more) = leavesOfAll nodes ++ leavesOfAll more := by
  simp [leavesOfAll_eq_flatMap]

mutual

theorem mem_pruneNode (level : FilterLevel) (found : GoString × Leaf) : (node : DataNode) →
    (found ∈ leavesOfAll (pruneNode level node).toList ↔
      found ∈ Reading.first.selection level.elements node)
  | .leaf path name kind value => by
      rw [pruneNode, Reading.selection]
      obtain ⟨hEmpty, hChild⟩ | ⟨hSome, hNamed, hChild⟩ | ⟨node, hSome, hNamed, hChild⟩ :=
        level.child_cases name
      · simp [hEmpty, hChild, leavesOfAll, DataNode.leaves]
      · simp [hSome, hNamed, hChild, leavesOfAll]
      · by_cases hAccepts : node.accepts kind value = true
        · simp [hNamed, hChild, hAccepts, leavesOfAll, DataNode.leaves]
        · simp [hSome, hNamed, hChild, hAccepts, leavesOfAll]
  | .container path name children => by
      rw [pruneNode, Reading.selection]
      obtain ⟨hLevels, hChild⟩ | ⟨node, inner, hLevels, hChild, _⟩ := level.child_levels name
      · simp [hLevels, hChild, leavesOfAll]
      · rw [hLevels, hChild, List.flatMap_singleton, ← mem_pruneNodes inner found children]
        cases hKept : pruneNodes inner children <;> simp [hKept, leavesOfAll, DataNode.leaves]
  | .list path name key entries => by
      rw [pruneNode, Reading.selection]
      obtain ⟨hLevels, hChild⟩ | ⟨node, inner, hLevels, hChild, hPicks⟩ := level.child_levels name
      · simp [hLevels, hChild, leavesOfAll]
      · rw [hLevels, hChild, List.flatMap_singleton,
          ← mem_pruneEntries inner node hPicks key found entries]
        cases hKept : pruneEntries node inner key entries <;>
          simp [hKept, leavesOfAll, DataNode.leaves, leavesOfEntries]

theorem mem_pruneNodes (level : FilterLevel) (found : GoString × Leaf) : (nodes : List DataNode) →
    (found ∈ leavesOfAll (pruneNodes level nodes) ↔
      found ∈ Reading.first.selectionOfAll level.elements nodes)
  | [] => Iff.rfl
  | node :: rest => by
      rw [pruneNodes, Reading.selectionOfAll, leavesOfAll_append, List.mem_append, List.mem_append,
        mem_pruneNode level found node, mem_pruneNodes level found rest]

theorem mem_pruneEntries (level : FilterLevel) (node : Option FilterNode)
    (hNode : ∀ children key, entrySelected node children key =
      Reading.first.picks level.elements key children)
    (key : GoString) (found : GoString × Leaf) : (entries : List ListNode) →
    (found ∈ leavesOfEntries (pruneEntries node level key entries) ↔
      found ∈ Reading.first.selectionOfEntries level.elements key entries)
  | [] => Iff.rfl
  | .mk path keyValue children :: rest => by
      have hRest := mem_pruneEntries level node hNode key found rest
      have hChildren := mem_pruneChildren level key found children
      simp only [pruneEntries, Reading.selectionOfEntries, hNode, List.mem_append]
      split
      · rw [← hRest, ← hChildren]
        split
        · next hNothing => simp [hNothing, leavesOfAll]
        · next keys kept _ hKept =>
          rw [hKept, leavesOfEntries, leavesOfAll_append, List.mem_append, List.mem_append]
      · simpa using hRest

theorem mem_pruneChildren (level : FilterLevel) (key : GoString) (found : GoString × Leaf) :
    (children : List DataNode) →
    (found ∈ leavesOfAll (pruneChildren level key children).1 ∨
        found ∈ leavesOfAll (pruneChildren level key children).2 ↔
      found ∈ Reading.first.selectionOfEntry level.elements key children)
  | [] => by simp [pruneChildren, leavesOfAll, Reading.selectionOfEntry]
  | child :: rest => by
      have hRest := mem_pruneChildren level key found rest
      have hChild := mem_pruneNode level found child
      simp only [pruneChildren, Reading.selectionOfEntry, List.mem_append, ← hRest]
      split
      · simp only [leavesOfAll, List.mem_append, or_assoc]
      · rw [leavesOfAll_append, List.mem_append, hChild]
        exact or_left_comm

end

/-! ## The two readings -/

namespace Reading

/-- Where two levels are related, one reading of the first selects no more than another reading of
the second: this is so at a leaf, and a level inside of the first is related to one inside of the
second that picks the same entries. -/
structure Within (reading other : Reading) (related : List FilterNode → List FilterNode → Prop) :
    Prop where
  leaf : ∀ elements others path name kind value, related elements others →
    reading.selection elements (.leaf path name kind value) ⊆
      other.selection others (.leaf path name kind value)
  levels : ∀ elements others name, related elements others →
    ∀ inner ∈ reading.levels elements name, ∃ below ∈ other.levels others name,
      related inner below ∧ ∀ key children, reading.picks inner key children = true →
        other.picks below key children = true

variable {reading other : Reading} {related : List FilterNode → List FilterNode → Prop}

/-- A leaf that some elements accept is accepted where these elements speak for it. -/
theorem selection_leaf_subset {elements others : List FilterNode} {path name : GoString}
    {kind : LeafKind} {value : Leaf} (hEmpty : elements.isEmpty = true → others.isEmpty = true)
    (hNamed : reading.named elements name ⊆ other.named others name) :
    reading.selection elements (.leaf path name kind value) ⊆
      other.selection others (.leaf path name kind value) := by
  intro found hFound
  rw [Reading.selection] at hFound ⊢
  split at hFound
  · next hAccepts =>
    rw [if_pos]
    · exact hFound
    · rw [Bool.or_eq_true, List.any_eq_true] at hAccepts ⊢
      refine hAccepts.imp hEmpty ?_
      rintro ⟨element, hElement, hValue⟩
      exact ⟨element, hNamed hElement, hValue⟩
  · cases hFound

mutual

theorem Within.selection (hWithin : reading.Within other related)
    {elements others : List FilterNode} (hRelated : related elements others) : (node : DataNode) →
      reading.selection elements node ⊆ other.selection others node
  | .leaf path name kind value => hWithin.leaf _ _ path name kind value hRelated
  | .container path name children => by
      intro found hFound
      rw [Reading.selection, List.mem_flatMap] at hFound ⊢
      obtain ⟨inner, hInner, hMem⟩ := hFound
      obtain ⟨below, hBelow, hInside, _⟩ := hWithin.levels _ _ name hRelated inner hInner
      exact ⟨below, hBelow, hWithin.selectionOfAll hInside children hMem⟩
  | .list path name key entries => by
      intro found hFound
      rw [Reading.selection, List.mem_flatMap] at hFound ⊢
      obtain ⟨inner, hInner, hMem⟩ := hFound
      obtain ⟨below, hBelow, hInside, hPicks⟩ := hWithin.levels _ _ name hRelated inner hInner
      exact ⟨below, hBelow, hWithin.selectionOfEntries hInside key (hPicks key) entries hMem⟩

theorem Within.selectionOfAll (hWithin : reading.Within other related)
    {elements others : List FilterNode} (hRelated : related elements others) :
    (nodes : List DataNode) →
      reading.selectionOfAll elements nodes ⊆ other.selectionOfAll others nodes
  | [] => List.Subset.refl _
  | node :: rest => by
      rw [Reading.selectionOfAll, Reading.selectionOfAll]
      exact append_subset_append (hWithin.selection hRelated node)
        (hWithin.selectionOfAll hRelated rest)

theorem Within.selectionOfEntries (hWithin : reading.Within other related)
    {elements others : List FilterNode} (hRelated : related elements others) (key : GoString)
    (hPicks : ∀ children, reading.picks elements key children = true →
      other.picks others key children = true) : (entries : List ListNode) →
      reading.selectionOfEntries elements key entries ⊆ other.selectionOfEntries others key entries
  | [] => List.Subset.refl _
  | .mk path keyValue children :: rest => by
      rw [Reading.selectionOfEntries, Reading.selectionOfEntries]
      refine append_subset_append ?_ (hWithin.selectionOfEntries hRelated key hPicks rest)
      split
      · next hPicked =>
        rw [if_pos (hPicks children hPicked)]
        exact hWithin.selectionOfEntry hRelated key children
      · exact List.nil_subset _

theorem Within.selectionOfEntry (hWithin : reading.Within other related)
    {elements others : List FilterNode} (hRelated : related elements others) (key : GoString) :
    (children : List DataNode) →
      reading.selectionOfEntry elements key children ⊆ other.selectionOfEntry others key children
  | [] => List.Subset.refl _
  | child :: rest => by
      rw [Reading.selectionOfEntry, Reading.selectionOfEntry]
      refine append_subset_append ?_ (hWithin.selectionOfEntry hRelated key rest)
      split
      · exact List.Subset.refl _
      · exact hWithin.selection hRelated child

end

theorem named_first_subset (elements : List FilterNode) (name : GoString) :
    first.named elements name ⊆ every.named elements name := by
  intro element hElement
  simp only [first, every, Option.mem_toList, List.mem_filter] at hElement ⊢
  have hName := List.find?_some hElement
  exact ⟨List.mem_of_find?_eq_some hElement, hName⟩

theorem picks_every_of_first {elements : List FilterNode} {key : GoString}
    {children : List DataNode} (hPicks : first.picks elements key children = true) :
    every.picks elements key children = true := by
  simp only [Reading.picks, first, every, Bool.or_eq_true, List.isEmpty_iff, List.any_eq_true,
    Option.toList_eq_nil_iff, List.find?_eq_none, Option.mem_toList, List.filter_eq_nil_iff,
    List.mem_filter] at hPicks ⊢
  refine hPicks.imp_right ?_
  rintro ⟨element, hElement, hMatches⟩
  have hKey := List.find?_some hElement
  exact ⟨element, ⟨List.mem_of_find?_eq_some hElement, hKey⟩, hMatches⟩

theorem first_within_every : first.Within every Eq where
  leaf := by
    rintro elements _ path name kind value rfl
    exact selection_leaf_subset id (named_first_subset elements name)
  levels := by
    rintro elements _ name rfl inner hInner
    refine ⟨inner, ?_, rfl, fun _ _ => picks_every_of_first⟩
    unfold Reading.levels at hInner ⊢
    split
    · next hEmpty => rwa [if_pos hEmpty] at hInner
    · next hSome =>
      rw [if_neg hSome] at hInner
      exact List.map_subset _ (named_first_subset elements name) hInner

theorem selectionOfAll_eq_flatMap (reading : Reading) (elements : List FilterNode)
    (nodes : List DataNode) :
    reading.selectionOfAll elements nodes = nodes.flatMap (reading.selection elements) := by
  induction nodes with
  | nil => rfl
  | cons node rest ih => rw [Reading.selectionOfAll, ih, List.flatMap_cons]

/-- A level selects of a node what the elements that speak for it select. -/
theorem selection_subset_of_named {elements others : List FilterNode} (hSome : elements ≠ [])
    (hOthers : others ≠ []) {node : DataNode}
    (hNamed : reading.named elements node.name ⊆ reading.named others node.name) :
    reading.selection elements node ⊆ reading.selection others node := by
  have hLevels : reading.levels elements node.name ⊆ reading.levels others node.name := by
    rw [reading.levels_of_ne_nil hSome, reading.levels_of_ne_nil hOthers]
    exact List.map_subset _ hNamed
  cases node with
  | leaf path name kind value =>
    exact selection_leaf_subset (fun hEmpty => absurd (List.isEmpty_iff.mp hEmpty) hSome) hNamed
  | container path name children | list path name key entries =>
    intro found hFound
    rw [Reading.selection, List.mem_flatMap] at hFound ⊢
    obtain ⟨inner, hInner, hMem⟩ := hFound
    exact ⟨inner, hLevels hInner, hMem⟩

/-- What one element selects, all elements together select. -/
theorem selectionOfAll_every_of_mem {elements : List FilterNode} {element : FilterNode}
    (hElement : element ∈ elements) (nodes : List DataNode) :
    every.selectionOfAll [element] nodes ⊆ every.selectionOfAll elements nodes := by
  rw [selectionOfAll_eq_flatMap, selectionOfAll_eq_flatMap]
  intro found hFound
  obtain ⟨node, hNode, hMem⟩ := List.mem_flatMap.mp hFound
  refine List.mem_flatMap.mpr ⟨node, hNode, ?_⟩
  refine selection_subset_of_named (List.cons_ne_nil _ _) (List.ne_nil_of_mem hElement) ?_ hMem
  exact List.filter_subset _ fun other hOther => List.mem_singleton.mp hOther ▸ hElement

/-- What is selected by the first elements is selected by one of them alone. -/
theorem exists_of_mem_selectionOfAll_first {elements : List FilterNode} (hSome : elements ≠ [])
    {nodes : List DataNode} {found : GoString × Leaf}
    (hFound : found ∈ first.selectionOfAll elements nodes) :
    ∃ element ∈ elements, found ∈ first.selectionOfAll [element] nodes := by
  rw [selectionOfAll_eq_flatMap] at hFound
  obtain ⟨node, hNode, hMem⟩ := List.mem_flatMap.mp hFound
  -- The element that speaks for the node, or any element if there is none.
  obtain ⟨element, hElement, hNamed⟩ : ∃ element ∈ elements,
      first.named elements node.name ⊆ first.named [element] node.name := by
    cases hFind : elements.find? fun element => element.name = node.name with
    | none =>
      obtain ⟨element, hElement⟩ := List.exists_mem_of_ne_nil elements hSome
      exact ⟨element, hElement, by simp [first, hFind]⟩
    | some element =>
      have hName := List.find?_some hFind
      exact ⟨element, List.mem_of_find?_eq_some hFind, by simp_all [first]⟩
  refine ⟨element, hElement, ?_⟩
  rw [selectionOfAll_eq_flatMap]
  exact List.mem_flatMap.mpr
    ⟨node, hNode, selection_subset_of_named hSome (List.cons_ne_nil _ _) hNamed hMem⟩

end Reading

end Netconf
end TriadSim
