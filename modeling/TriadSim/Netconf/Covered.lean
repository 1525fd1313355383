import TriadSim.Netconf.Selection

/-!
# Filters in which nothing is hidden

`pruneNodes` reads the first element of a name only, so a filter can hold elements that it never
looks at.  An element is covered if it selects no more than the first element of its name: the
first one asks for no text or for the same one, for no keys but its own, and what is inside of it
is covered in turn.  The answers follow the rules for all trees exactly if all elements are covered
(`filtered_answer_follows_rules_iff`).
-/

namespace TriadSim
namespace Netconf

open Datatree Go Library Router Store

/-! ## Covered elements -/

/-- The first key elements of a level ask for all that the key elements of another one ask
for. -/
def keysCovered (level inner : List FilterNode) : Bool :=
  level.all fun element => (Reading.first.keyed level element.name).all fun key =>
    !(Reading.every.keyed inner element.name).isEmpty &&
      (Reading.every.keyed inner element.name).all fun other => other.text = key.text

mutual

def FilterNode.covered (level : List FilterNode) : FilterNode → Bool
  | .mk name text children =>
    (Reading.first.named level name).any fun element =>
      (element.text.isNone || text = element.text) && keysCovered element.children children &&
        (element.children.isEmpty || !children.isEmpty && allCovered element.children children)

def allCovered (level : List FilterNode) : List FilterNode → Bool
  | [] => true
  | element :: rest => element.covered level && allCovered level rest

end

/-- The first elements of a level select all that another level selects. -/
def covers (level inner : List FilterNode) : Bool :=
  level.isEmpty || !inner.isEmpty && allCovered level inner

theorem allCovered_iff (level elements : List FilterNode) :
    allCovered level elements = true ↔ ∀ element ∈ elements, element.covered level = true := by
  induction elements with
  | nil => simp [allCovered]
  | cons element rest ih => simp [allCovered, ih]

theorem covers_iff {level inner : List FilterNode} :
    covers level inner = true ↔ level = [] ∨ inner ≠ [] ∧ allCovered level inner = true := by
  simp [covers]

theorem Reading.mem_named_every {elements : List FilterNode} {name : GoString}
    {element : FilterNode} :
    element ∈ Reading.every.named elements name ↔ element ∈ elements ∧ element.name = name := by
  simp [Reading.every]

theorem FilterNode.covered_iff (level : List FilterNode) (element : FilterNode) :
    element.covered level = true ↔ ∃ other ∈ Reading.first.named level element.name,
      (other.text = none ∨ element.text = other.text) ∧
        keysCovered other.children element.children = true ∧
        covers other.children element.children = true := by
  obtain ⟨name, text, children⟩ := element
  show _ ↔ ∃ other ∈ Reading.first.named level name, (other.text = none ∨ text = other.text) ∧
    keysCovered other.children children = true ∧ covers other.children children = true
  simp [covered, covers, and_assoc]

theorem keyed_first_of_mem {level : List FilterNode} {key : GoString} {element : FilterNode}
    (hElement : element ∈ Reading.first.keyed level key) :
    Reading.first.keyed level key = [element] ∧ element ∈ level ∧ element.name = key ∧
      element.text.isSome = true := by
  have hFind : level.find? (fun element => element.name = key && element.text.isSome) =
      some element := Option.mem_toList.mp hElement
  have hFound := List.find?_some hFind
  rw [Bool.and_eq_true, decide_eq_true_eq] at hFound
  exact ⟨by simp [Reading.first, hFind], List.mem_of_find?_eq_some hFind, hFound⟩

/-- The first key element of a name, and the key elements that it covers. -/
theorem keysCovered_iff (level inner : List FilterNode) :
    keysCovered level inner = true ↔ ∀ name, ∀ key ∈ Reading.first.keyed level name,
      Reading.every.keyed inner name ≠ [] ∧
        ∀ other ∈ Reading.every.keyed inner name, other.text = key.text := by
  simp only [keysCovered, List.all_eq_true, Bool.and_eq_true, Bool.not_eq_true',
    List.isEmpty_eq_false_iff, decide_eq_true_eq]
  constructor
  · intro hCovered name key hKey
    obtain ⟨_, hMem, rfl, _⟩ := keyed_first_of_mem hKey
    exact hCovered key hMem key hKey
  · exact fun hCovered element _ => hCovered element.name

theorem picks_of_keysCovered {level inner : List FilterNode}
    (hCovered : keysCovered level inner = true) {key : GoString} {children : List DataNode}
    (hPicks : Reading.every.picks inner key children = true) :
    Reading.first.picks level key children = true := by
  rw [Reading.picks, Bool.or_eq_true, List.isEmpty_iff, List.any_eq_true] at hPicks ⊢
  by_cases hNone : Reading.first.keyed level key = []
  · exact .inl hNone
  · obtain ⟨element, hElement⟩ := List.exists_mem_of_ne_nil _ hNone
    obtain ⟨hSome, hTexts⟩ := (keysCovered_iff level inner).mp hCovered key element hElement
    obtain ⟨other, hOther, hMatches⟩ := hPicks.resolve_left hSome
    refine .inr ⟨element, hElement, ?_⟩
    simpa only [FilterNode.keyMatches, FilterNode.accepts, hTexts other hOther] using hMatches

theorem every_within_first :
    Reading.every.Within Reading.first fun inner level => covers level inner = true := by
  have hCases : ∀ inner level, covers level inner = true → level = [] ∨
      level ≠ [] ∧ inner ≠ [] ∧ ∀ element ∈ inner, element.covered level = true := by
    intro inner level hCovers
    rw [covers_iff, allCovered_iff] at hCovers
    by_cases hLevel : level = []
    · exact .inl hLevel
    · exact .inr ⟨hLevel, hCovers.resolve_left hLevel⟩
  constructor
  · intro inner level path name kind value hCovers found hFound
    rw [Reading.selection] at hFound ⊢
    split at hFound
    · next hAccepts =>
      rw [if_pos]
      · exact hFound
      · rw [Bool.or_eq_true, List.isEmpty_iff, List.any_eq_true] at hAccepts ⊢
        refine (hCases inner level hCovers).imp_right ?_
        rintro ⟨_, hInner, hAll⟩
        obtain ⟨element, hElement, hValue⟩ := hAccepts.resolve_left hInner
        obtain ⟨hMem, rfl⟩ := Reading.mem_named_every.mp hElement
        obtain ⟨other, hOther, hText, _⟩ :=
          (FilterNode.covered_iff level element).mp (hAll element hMem)
        refine ⟨other, hOther, ?_⟩
        unfold FilterNode.accepts at hValue ⊢
        rcases hText with hNone | hSame
        · rw [hNone]
          rfl
        · rwa [← hSame]
    · cases hFound
  · intro inner level name hCovers below hBelow
    obtain rfl | ⟨hLevel, hInner, hAll⟩ := hCases inner level hCovers
    · exact ⟨[], List.mem_singleton_self _, rfl, fun _ _ _ => rfl⟩
    · rw [Reading.levels_of_ne_nil _ hInner, List.mem_map] at hBelow
      obtain ⟨element, hElement, rfl⟩ := hBelow
      obtain ⟨hMem, rfl⟩ := Reading.mem_named_every.mp hElement
      obtain ⟨other, hOther, _, hKeys, hInside⟩ :=
        (FilterNode.covered_iff level element).mp (hAll element hMem)
      rw [Reading.levels_of_ne_nil _ hLevel]
      exact ⟨other.children, List.mem_map_of_mem hOther, hInside,
        fun _ _ => picks_of_keysCovered hKeys⟩

/-! ### What a hidden element would have selected -/

/-- A leaf with a text. -/
def textLeaf (name value : GoString) : DataNode :=
  .leaf [] name .string (.string value)

theorem accepts_string_iff (element : FilterNode) (value : GoString) :
    element.accepts .string (.string value) = true ↔
      element.text = none ∨ element.text = some value := by
  unfold FilterNode.accepts
  cases element.text with
  | none => simp
  | some asked => simp [contentMatches, parseLeaf, Leaf.goEq]

/-- A text that one element asks for, or leaves open, and that another one does not ask for. -/
theorem exists_text_of_ne {asked : Option GoString} {text : GoString} (hOther : asked ≠ some text) :
    ∃ value, (asked = none ∨ asked = some value) ∧ value ≠ text := by
  cases asked with
  | none => exact ⟨120 :: text, .inl rfl, List.cons_ne_self _ _⟩
  | some value => exact ⟨value, .inr rfl, fun hSame => hOther (hSame ▸ rfl)⟩

/-- A node of which a level selects something that the first elements of another do not. -/
def Hidden (level : List FilterNode) (elements : List FilterNode) : Prop :=
  ∃ node found, found ∈ Reading.every.selection elements node ∧
    found ∉ Reading.first.selection level node

/-- A leaf that an element accepts and the first element of its name does not. -/
theorem hidden_of_leaf {level elements : List FilterNode} (hLevel : level ≠ [])
    {element : FilterNode} (hElement : element ∈ elements) (value : GoString)
    (hText : element.text = none ∨ element.text = some value)
    (hFirst : ∀ other ∈ Reading.first.named level element.name,
      other.text ≠ none ∧ other.text ≠ some value) : Hidden level elements := by
  refine ⟨textLeaf element.name value, ([], .string value), ?_, ?_⟩
  · rw [textLeaf, Reading.selection, if_pos]
    · exact List.mem_singleton_self _
    · rw [Bool.or_eq_true, List.any_eq_true]
      exact .inr ⟨element, Reading.mem_named_every.mpr ⟨hElement, rfl⟩,
        (accepts_string_iff element value).mpr hText⟩
  · rw [textLeaf, Reading.selection, if_neg]
    · exact List.not_mem_nil
    · rw [Bool.or_eq_true, List.isEmpty_iff, List.any_eq_true]
      rintro (hEmpty | ⟨other, hOther, hAccepts⟩)
      · exact hLevel hEmpty
      · exact (accepts_string_iff other value).mp hAccepts |>.elim (hFirst other hOther).1
          (hFirst other hOther).2

/-- A level without elements selects a leaf that no element of another level names. -/
theorem hidden_of_nil {level : List FilterNode} (hLevel : level ≠ []) : Hidden level [] := by
  obtain ⟨name, hName⟩ := Infinite.exists_notMem_finset (level.map FilterNode.name).toFinset
  refine ⟨textLeaf name [], ([], .string []), List.mem_singleton_self _, ?_⟩
  have hNone : Reading.first.named level name = [] := by
    simp only [Reading.first, Option.toList_eq_nil_iff, List.find?_eq_none, decide_eq_true_eq]
    intro element hElement hSame
    exact hName (List.mem_toFinset.mpr (hSame ▸ List.mem_map_of_mem hElement))
  simp [textLeaf, Reading.selection, hNone, hLevel]

theorem picks_textLeaf_iff (reading : Reading) (elements : List FilterNode) (key value : GoString) :
    reading.picks elements key [textLeaf key value] = true ↔ reading.keyed elements key = [] ∨
      ∃ element ∈ reading.keyed elements key,
        element.text = none ∨ element.text = some value := by
  simp [Reading.picks, FilterNode.keyMatches, textLeaf, DataNode.name, accepts_string_iff]

/-- An entry that the key elements of an element pick and those of the first one do not. -/
theorem exists_key_of_not_keysCovered {level inner : List FilterNode}
    (hKeys : ¬ keysCovered level inner = true) :
    ∃ key value, Reading.every.picks inner key [textLeaf key value] = true ∧
      ¬ Reading.first.picks level key [textLeaf key value] = true := by
  rw [keysCovered_iff] at hKeys
  push Not at hKeys
  obtain ⟨key, element, hElement, hOther⟩ := hKeys
  obtain ⟨hFirst, _, _, hSome⟩ := keyed_first_of_mem hElement
  obtain ⟨text, hText⟩ := Option.isSome_iff_exists.mp hSome
  have hNotFirst : ∀ value, value ≠ text →
      ¬ Reading.first.picks level key [textLeaf key value] = true := by
    intro value hValue
    simp [picks_textLeaf_iff, hFirst, hText, hValue.symm]
  by_cases hNone : Reading.every.keyed inner key = []
  · obtain ⟨value, _, hValue⟩ := exists_text_of_ne (Option.some_ne_none text).symm
    exact ⟨key, value, (picks_textLeaf_iff _ _ _ _).mpr (.inl hNone), hNotFirst value hValue⟩
  · obtain ⟨other, hMem, hDiffer⟩ := hOther hNone
    obtain ⟨value, hAsked, hValue⟩ := exists_text_of_ne (hText ▸ hDiffer)
    exact ⟨key, value, (picks_textLeaf_iff _ _ _ _).mpr (.inr ⟨other, hMem, hAsked⟩),
      hNotFirst value hValue⟩

mutual

/-- What is not covered hides something, in every level that it is an element of. -/
theorem FilterNode.hidden_of_not_covered {level : List FilterNode} (hLevel : level ≠ []) :
    (element : FilterNode) → ¬ element.covered level = true →
      ∀ elements, element ∈ elements → Hidden level elements
  | .mk name text children => by
      intro hCovered elements hElement
      rw [FilterNode.covered_iff] at hCovered
      push Not at hCovered
      have hInside : children ∈ Reading.every.levels elements name := by
        rw [Reading.levels_of_ne_nil _ (List.ne_nil_of_mem hElement)]
        exact List.mem_map.mpr ⟨_, Reading.mem_named_every.mpr ⟨hElement, rfl⟩, rfl⟩
      cases hNamed : level.find? fun other => other.name = name with
      | none =>
        refine hidden_of_leaf hLevel hElement (text.getD []) ?_ ?_
        · cases text <;> simp [FilterNode.text]
        · show ∀ other ∈ Reading.first.named level name, _
          simp [Reading.first, hNamed]
      | some other =>
        have hFirst : Reading.first.named level name = [other] := by simp [Reading.first, hNamed]
        have hLevels : Reading.first.levels level name = [other.children] := by
          rw [Reading.levels_of_ne_nil _ hLevel, hFirst, List.map_singleton]
        have hOther := hCovered other (hFirst ▸ List.mem_singleton_self other)
        by_cases hText : other.text = none ∨ text = other.text
        · by_cases hKeys : keysCovered other.children children = true
          · -- a container around what is hidden inside
            obtain ⟨node, found, hEvery, hNot⟩ : Hidden other.children children := by
              have hCovers := hOther hText hKeys
              rw [ne_eq, covers_iff, not_or, not_and] at hCovers
              by_cases hEmpty : children = []
              · rw [hEmpty]
                exact hidden_of_nil hCovers.1
              · exact hidden_of_not_allCovered hCovers.1 children (hCovers.2 hEmpty) children
                  (List.Subset.refl _)
            refine ⟨.container [] name [node], found, ?_, ?_⟩
            · rw [Reading.selection, List.mem_flatMap]
              exact ⟨children, hInside, by simpa [Reading.selectionOfAll] using hEvery⟩
            · simpa [Reading.selection, hLevels, Reading.selectionOfAll] using hNot
          · -- a list with an entry of the key
            obtain ⟨key, value, hEvery, hNot⟩ := exists_key_of_not_keysCovered hKeys
            refine ⟨.list [] name key [.mk [] value [textLeaf key value]], ([], .string value),
              ?_, ?_⟩
            · rw [Reading.selection, List.mem_flatMap]
              refine ⟨children, hInside, ?_⟩
              rw [Reading.selectionOfEntries, if_pos hEvery]
              simp [Reading.selectionOfEntry, textLeaf, DataNode.name, DataNode.leaves]
            · simp [Reading.selection, hLevels, Reading.selectionOfEntries, hNot]
        · push Not at hText
          obtain ⟨asked, hAsked⟩ := Option.ne_none_iff_exists'.mp hText.1
          obtain ⟨value, hValue, hDiffer⟩ := exists_text_of_ne (hAsked ▸ hText.2)
          refine hidden_of_leaf hLevel hElement _ hValue ?_
          show ∀ other ∈ Reading.first.named level name, _
          simpa [hFirst, hAsked] using hDiffer.symm

theorem hidden_of_not_allCovered {level : List FilterNode} (hLevel : level ≠ []) :
    (elements : List FilterNode) → ¬ allCovered level elements = true →
      ∀ all, elements ⊆ all → Hidden level all
  | [] => fun hCovered => absurd rfl hCovered
  | element :: rest => by
      intro hCovered all hAll
      rw [allCovered, Bool.and_eq_true, not_and_or] at hCovered
      rcases hCovered with hElement | hRest
      · exact element.hidden_of_not_covered hLevel hElement all (hAll List.mem_cons_self)
      · exact hidden_of_not_allCovered hLevel rest hRest all (List.subset_of_cons_subset hAll)

end

/-! ## The answer -/

/-- The leaves of an answer are those that the rules select, and they are what the elements of
the filter select one by one. -/
structure FollowsRules (elements : List FilterNode) (nodes kept : List DataNode) : Prop where
  selected : ∀ found, found ∈ leavesOfAll kept ↔
    found ∈ Reading.every.selectionOfAll elements nodes
  union : elements ≠ [] → ∀ found, found ∈ leavesOfAll kept ↔
    ∃ element ∈ elements, found ∈ leavesOfAll (pruneNodes ⟨true, [element]⟩ nodes)

/-- An answer follows the rules if the first elements of each name select all there is to
select. -/
theorem followsRules_pruneNodes {elements : List FilterNode} {nodes : List DataNode}
    (hFirst : Reading.every.selectionOfAll elements nodes ⊆
      Reading.first.selectionOfAll elements nodes) :
    FollowsRules elements nodes (pruneNodes ⟨true, elements⟩ nodes) := by
  have hKept : ∀ level found, found ∈ leavesOfAll (pruneNodes ⟨true, level⟩ nodes) ↔
      found ∈ Reading.first.selectionOfAll level nodes :=
    fun level found => mem_pruneNodes ⟨true, level⟩ found nodes
  have hEvery : ∀ level, Reading.first.selectionOfAll level nodes ⊆
      Reading.every.selectionOfAll level nodes :=
    fun level => Reading.first_within_every.selectionOfAll rfl nodes
  refine ⟨fun found => ?_, fun hSome found => ?_⟩
  · rw [hKept]
    exact ⟨fun hFound => hEvery elements hFound, fun hFound => hFirst hFound⟩
  · rw [hKept]
    constructor
    · intro hFound
      obtain ⟨element, hElement, hAlone⟩ :=
        Reading.exists_of_mem_selectionOfAll_first hSome hFound
      exact ⟨element, hElement, (hKept [element] found).mpr hAlone⟩
    · rintro ⟨element, hElement, hAlone⟩
      exact hFirst (Reading.selectionOfAll_every_of_mem hElement nodes
        (hEvery [element] ((hKept [element] found).mp hAlone)))

/-- The answers for all trees follow the rules exactly if no element of the filter is hidden. -/
theorem followsRules_iff_allCovered (elements : List FilterNode) :
    (∀ nodes, FollowsRules elements nodes (pruneNodes ⟨true, elements⟩ nodes)) ↔
      allCovered elements elements = true := by
  constructor
  · intro hFollows
    by_contra hHidden
    have hSome : elements ≠ [] := by
      rintro rfl
      exact hHidden rfl
    obtain ⟨node, found, hEvery, hNot⟩ :=
      hidden_of_not_allCovered hSome elements hHidden elements (List.Subset.refl _)
    have hAnswer := ((hFollows [node]).selected found).mpr
      (by simpa [Reading.selectionOfAll] using hEvery)
    have hFirst : found ∈ Reading.first.selectionOfAll elements [node] :=
      (mem_pruneNodes ⟨true, elements⟩ found [node]).mp hAnswer
    exact hNot (by simpa [Reading.selectionOfAll] using hFirst)
  · intro hCovered nodes
    refine followsRules_pruneNodes (every_within_first.selectionOfAll ?_ nodes)
    cases elements with
    | nil => rfl
    | cons element rest => exact hCovered

/-- A program that has come to its result and only returns something for it. -/
theorem run_bind_ret {json : Json} {opts : Options} {α β : Type} {program : Prog α}
    {k : α → Prog β} {env : Nat → CallEnv} {machine after : Machine json} {value : α} {result : β}
    (hRun : program.run opts env machine = (value, after)) (hNext : k value = .ret result) :
    Prog.run opts (program.bind k) env machine = (result, after) := by
  unfold Prog.run at hRun ⊢
  have hBind := Program.exec_bind (Machine.handle opts) program k env machine
  rw [Prod.mk.injEq] at hRun
  obtain ⟨hValue, hAfter⟩ := hRun
  rw [hValue, hAfter, hNext] at hBind
  exact congrArg (fun done => (done.1, done.2.2)) hBind

/-- The answer to a request whose read succeeds. -/
theorem run_getConfig {json : Json} {opts : Options} {r : Router} {machine after : Machine json}
    {env : Nat → CallEnv} {operation : Document} {ds : Datastore}
    (hSource : sourceDatastore operation = .ok ds) {filter : Option (List FilterNode)}
    (hFilter : parseFilter (operation.child "filter") = .ok filter) {children : List DataNode}
    (hRead : (read r ds [] .config).run opts env machine =
      (.ok (some (.container [] [] children)), after)) :
    (getConfig r operation).run opts env machine =
      (.ok (dataElement (narrowed filter children)), after) := by
  unfold getConfig
  rw [hSource, hFilter]
  exact run_bind_ret (run_bind_ret hRead rfl) rfl

/-- A request with a filter is answered with what `pruneNodes` leaves of the tree, and this has the
leaves that the rules select, whatever the tree is, exactly if every element of the filter selects
no more than the first element of its name beside it. -/
theorem filtered_answer_follows_rules_iff {json : Json} (opts : Options) (r : Router)
    (machine after : Machine json) (env : Nat → CallEnv) (operation : Document) (ds : Datastore)
    (hSource : sourceDatastore operation = .ok ds) (elements : List FilterNode)
    (hFilter : parseFilter (operation.child "filter") = .ok (some elements))
    (children : List DataNode)
    (hRead : (read r ds [] .config).run opts env machine =
      (.ok (some (.container [] [] children)), after)) :
    (getConfig r operation).run opts env machine =
        (.ok (dataElement (pruneNodes ⟨true, elements⟩ children)), after) ∧
      ((∀ nodes, FollowsRules elements nodes (pruneNodes ⟨true, elements⟩ nodes)) ↔
        allCovered elements elements = true) :=
  ⟨run_getConfig hSource hFilter hRead, followsRules_iff_allCovered elements⟩

/-- A read of the whole datastore that succeeds. -/
theorem exists_children_of_read {json : Json} {opts : Options} {r : Router} {ds : Datastore}
    {machine : Machine json} {env : Nat → CallEnv} {content : Content}
    (hOk : ((read r ds [] content).run opts env machine).1.isOk = true) :
    ∃ children, (read r ds [] content).run opts env machine =
      (.ok (some (.container [] [] children)), machine) := by
  obtain ⟨hAfter, hNode⟩ := Prog.Ensures.run (@ensures_read [] r content _ opts machine ds) env
  obtain ⟨node, hFound⟩ := exists_eq_ok_of_isOk hOk
  obtain ⟨stored, results, _, _, hReads⟩ := hNode node hFound
  rw [readNode, if_pos rfl] at hReads
  obtain ⟨children, _, hRoot⟩ := bind_eq_ok_iff.mp hReads
  cases hRoot
  exact ⟨children, Prod.ext hFound hAfter⟩

/-- Two VLANs, each with its key leaf. -/
def twoVlans : Values :=
  Std.ExtTreeMap.ofList
    [(text "vlans/vlan[id=10]/id", .uint16 10), (text "vlans/vlan[id=10]/name", .string "ten"),
      (text "vlans/vlan[id=20]/id", .uint16 20), (text "vlans/vlan[id=20]/name", .string "twenty")]
    compare

/-- `<vlans>` around a `<vlan>` with some key. -/
def vlanFilter (keys : List GoString) : List Document :=
  [.mk "vlans" [] [] (keys.map fun key => .mk "vlan" [] [] [.mk "id" key [] []])]

/-- A request for some VLANs of running. -/
def vlanRequest (keys : List GoString) : Document :=
  runningRequest (vlanFilter keys)

theorem vlan_of_one_key_is_answered :
    ∃ children kept, (getConfig defaultRouter (vlanRequest ["20"])).run (defaultRouter.options [])
        (fun _ => CallEnv.quiet) (machineWith twoVlans) =
        (.ok (dataElement kept), machineWith twoVlans) ∧
      FollowsRules (filterNodesOf (vlanFilter ["20"])) children kept := by
  obtain ⟨children, hRead⟩ := exists_children_of_read
    (show ((read defaultRouter .running [] .config).run (defaultRouter.options [])
      (fun _ => CallEnv.quiet) (machineWith twoVlans)).1.isOk = true by decide +kernel)
  have hAnswer := filtered_answer_follows_rules_iff (defaultRouter.options [])
    defaultRouter (machineWith twoVlans) (machineWith twoVlans) (fun _ => CallEnv.quiet)
    (vlanRequest ["20"]) .running rfl (filterNodesOf (vlanFilter ["20"])) rfl children hRead
  exact ⟨children, _, hAnswer.1, hAnswer.2.mpr (by decide) children⟩

mutual

/-- The texts of an element and of the elements in it. -/
def XMLElement.texts : XMLElement → List GoString
  | .mk _ _ text children => (if text = [] then [] else [text]) ++ textsOfAll children

def textsOfAll : List XMLElement → List GoString
  | [] => []
  | element :: rest => element.texts ++ textsOfAll rest

end

/-- The texts of the answer to a request for some VLANs. -/
def answeredTexts (keys : List GoString) : Option (List GoString) :=
  ((getConfig defaultRouter (vlanRequest keys)).run (defaultRouter.options [])
    (fun _ => CallEnv.quiet) (machineWith twoVlans)).1.toOption.map XMLElement.texts

/-- A request for two VLANs is answered with the first of them. -/
theorem second_vlan_is_not_answered :
    answeredTexts ["10"] = some [text "10"] ∧ answeredTexts ["20"] = some [text "20"] ∧
      answeredTexts ["10", "20"] = some [text "10"] := by
  decide +kernel

end Netconf
end TriadSim
