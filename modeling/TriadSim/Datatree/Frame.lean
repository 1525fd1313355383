import TriadSim.Datatree.Edit

/-!
# What an edit can touch

Every change of a proposal is the removal of a writable leaf or a converted value put at a leaf,
inside the subtree of the document that asks for it.  `Touches` says so for one step of the
editor, and a walk along any document is made of such steps.  The main result is
`Editor.touches_walkAll`.
-/

namespace TriadSim
namespace Datatree

open Go Library Router

/-- The leaf at `path` lies below the node at `root`. -/
def Below (root path : GoString) : Prop :=
  hasPrefix path (root ++ [47]) = true

/-- The leaves a node with the given address covers: a leaf itself, or everything
below a container or a list entry. -/
def Covers (node : Node) (root path : GoString) : Prop :=
  match node.kind with
  | .leaf _ => path = root
  | _ => Below root path

variable {node : Node} {root : GoString} {r : Router} {path base : GoString} {document : Document}

variable {kind : LeafKind} {value : Leaf} {s part : GoString}

theorem covers_leaf_iff (hKind : node.kind = .leaf kind) (path : GoString) :
    Covers node root path ↔ path = root := by
  rw [Covers, hKind]

theorem covers_inner_iff (hInner : ∀ kind, node.kind ≠ .leaf kind) (path : GoString) :
    Covers node root path ↔ Below root path := by
  rw [Covers]
  cases hKind : node.kind with
  | leaf kind => exact absurd hKind (hInner kind)
  | container | list key => rfl

/-- The path has the form of a leaf: by its names it leads to one. -/
def LeafPath (path : GoString) : Prop :=
  ∃ segments, parse path = .ok segments ∧
    (leafAt Model.Device.fields (segments.map Segment.name)).isSome = true

/-- The value is what the router makes of itself at the path. -/
def Settled (r : Router) (path : GoString) (value : Leaf) : Prop :=
  ∃ converted, r.convert path (.leaf value) = .ok converted ∧ converted.value = value

theorem leafPath_of_locate_eq_ok {canonical : GoString} {readOnly : Bool}
    (hLocate : r.locate path = .ok (canonical, kind, readOnly)) :
    LeafPath path := by
  obtain ⟨_, segments, hParse, hResolve⟩ := locate_eq_ok hLocate
  exact ⟨segments, hParse, by rw [leafAt_of_resolve_eq_ok hResolve]; rfl⟩

theorem Settled.leafPath (hSettled : Settled r path value) : LeafPath path := by
  obtain ⟨converted, hConvert, _⟩ := hSettled
  obtain ⟨kind, _, _, hLocate, _⟩ := convert_eq_ok hConvert
  exact leafPath_of_locate_eq_ok hLocate

theorem Settled.not_state (hSettled : Settled r path value) :
    r.isState path = false := by
  obtain ⟨converted, hConvert, _⟩ := hSettled
  exact isState_of_convert_eq_ok hConvert

/-! ## Paths -/

theorem hasPrefix_iff {lead : GoString} : hasPrefix s lead = true ↔ lead <+: s := by
  rw [hasPrefix, List.isPrefixOf_iff_prefix]

/-- What a node one segment below `root` covers lies below `root`. -/
theorem below_of_covers_joinPath (hRoot : root ≠ [])
    (hPath : Covers node (joinPath root part) path) : Below root path := by
  have hJoin : joinPath root part = root ++ [47] ++ part := by
    simp [joinPath, hRoot]
  rw [Below, hasPrefix_iff]
  by_cases hLeaf : ∃ kind, node.kind = .leaf kind
  · obtain ⟨kind, hKind⟩ := hLeaf
    rw [covers_leaf_iff hKind] at hPath
    rw [hPath, hJoin]
    exact List.prefix_append _ _
  · rw [covers_inner_iff (fun kind hKind => hLeaf ⟨kind, hKind⟩), Below, hasPrefix_iff, hJoin,
      List.append_assoc (root ++ [47])] at hPath
    exact (List.prefix_append _ _).trans hPath

theorem joinPath_append (base name tail : GoString) :
    joinPath base name ++ tail = joinPath base (name ++ tail) := by
  unfold joinPath
  split <;> simp

theorem joinPath_ne_nil (hPart : part ≠ []) : joinPath base part ≠ [] := by
  unfold joinPath
  split <;> simp [hPart]

theorem parse_joinPath {segments : List Segment} {segment : Segment}
    (hBase : baseSegments base = .ok segments) (hSegment : segment.WellFormed)
    (hSlash : 47 ∉ segment.text) :
    parse (joinPath base segment.text) = .ok (segments ++ [segment]) := by
  have hTail : parse segment.text = .ok [segment] :=
    (parse_of_slash_not_mem hSlash).mpr ⟨segment, parseSegment_text hSegment, rfl⟩
  rcases baseSegments_eq_ok hBase with ⟨rfl, rfl⟩ | ⟨hPath, hParse⟩
  · exact hTail
  · rw [joinPath, if_neg hPath]
    exact parse_append_slash.mpr ⟨segments, [segment], hParse, hTail, rfl⟩

/-- A list entry's key value is the text of its key, and can stand in a predicate. -/
theorem listKey_eq_ok {keyName value : GoString} (hKey : listKey document keyName = .ok value) :
    ((document.child keyName).map fun key => trimSpace key.text).getD [] = value ∧
      value ≠ [] ∧ containsAny value [47, 91, 93] = false := by
  unfold listKey at hKey
  dsimp only at hKey
  split at hKey
  · cases hKey
  · next hNonempty =>
    split at hKey
    · cases hKey
    · next hPlain =>
      cases hKey
      exact ⟨rfl, hNonempty, by simpa using hPlain⟩

theorem not_mem_of_containsAny_eq_false (hPlain : containsAny s [47, 91, 93] = false) :
    47 ∉ s ∧ 91 ∉ s ∧ 93 ∉ s := by
  simp only [containsAny, List.any_eq_false, List.contains_eq_mem, List.mem_cons,
    List.not_mem_nil, or_false, decide_eq_true_eq, not_or] at hPlain
  exact ⟨fun hMem => (hPlain 47 hMem).1 rfl, fun hMem => (hPlain 91 hMem).2.1 rfl,
    fun hMem => (hPlain 93 hMem).2.2 rfl⟩

theorem plainName_iff {name : GoString} (hName : plainName name = true) :
    name ≠ [] ∧ 47 ∉ name ∧ 91 ∉ name ∧ 93 ∉ name := by
  simp only [plainName, Bool.and_eq_true, decide_eq_true_eq, Bool.not_eq_true'] at hName
  exact ⟨hName.1, not_mem_of_containsAny_eq_false hName.2⟩

/-- The key of a list of the schema has a name. -/
theorem key_ne_nil_of_childrenOf_eq_ok {nodes : List Node} {key : GoString}
    (hSchema : childrenOf path = .ok nodes) (hNode : node ∈ nodes)
    (hKind : node.kind = .list key) : key ≠ [] := by
  obtain ⟨_, _, hAgree⟩ := nodeAgrees_of_childrenOf_eq_ok hSchema
  have hAgrees := hAgree node hNode
  simp only [nodeAgrees, hKind, Bool.and_eq_true] at hAgrees
  exact (plainName_iff hAgrees.2.1.2).1

/-- The address of a document is one segment below the base, named as the document. -/
theorem Editor.addressOf_eq_ok {names : List GoString}
    (hAgrees : nodeAgrees Model.Device.fields names node = true) (hName : node.name = document.name)
    (hAddress : addressOf base document node = .ok path) :
    ∃ segment : Segment, segment.name = document.name ∧ segment.WellFormed ∧
      47 ∉ segment.text ∧ path = joinPath base segment.text := by
  unfold nodeAgrees at hAgrees
  rw [Bool.and_eq_true] at hAgrees
  obtain ⟨hPlain, hKind⟩ := hAgrees
  rw [hName] at hPlain
  obtain ⟨hNonempty, hSlash, hOpen, hClose⟩ := plainName_iff hPlain
  unfold addressOf at hAddress
  cases hNode : node.kind with
  | list key =>
    simp only [hNode, Bool.and_eq_true, Bool.not_eq_true', List.contains_eq_mem,
      decide_eq_false_iff_not] at hAddress hKind
    obtain ⟨⟨_, hKeyPlain⟩, hEquals⟩ := hKind
    obtain ⟨hKeyNonempty, hKeySlash, hKeyOpen, hKeyClose⟩ := plainName_iff hKeyPlain
    obtain ⟨value, hValue, hPath⟩ := bind_eq_ok_iff.mp hAddress
    obtain ⟨_, hValueNonempty, hValuePlain⟩ := listKey_eq_ok hValue
    obtain ⟨hValueSlash, hValueOpen, hValueClose⟩ := not_mem_of_containsAny_eq_false hValuePlain
    refine ⟨⟨document.name, key, value⟩, rfl, ⟨hNonempty, Or.inr ⟨hKeyNonempty,
      hValueNonempty, hEquals, hOpen, hClose, hKeyOpen, hKeyClose, hValueOpen,
      hValueClose⟩⟩, ?_, ?_⟩
    · simp [Segment.text, hKeyNonempty, hSlash, hKeySlash, hValueSlash]
    · cases hPath
      simp only [Segment.text, hKeyNonempty, if_false, joinPath_append, List.append_assoc]
  | container | leaf kind =>
    simp only [hNode] at hAddress
    cases hAddress
    exact ⟨⟨document.name, [], []⟩, rfl, ⟨hNonempty, Or.inl ⟨rfl, rfl, hOpen⟩⟩,
      by simpa [Segment.text] using hSlash, by simp [Segment.text]⟩

/-- The address of a container or of a list entry is not the path of a leaf. -/
theorem Editor.not_leafPath_of_addressOf {schema : List Node}
    (hSchema : childrenOf base = .ok schema) (hNode : nodeNamed schema document.name = some node)
    (hKind : ∀ kind, node.kind ≠ .leaf kind) (hAddress : addressOf base document node = .ok path) :
    ¬ LeafPath path := by
  obtain ⟨hMem, hName⟩ := nodeNamed_eq_some hNode
  obtain ⟨segments, hBase, hAgree⟩ := nodeAgrees_of_childrenOf_eq_ok hSchema
  have hAgrees := hAgree node hMem
  obtain ⟨segment, hSegment, hWellFormed, hSlash, rfl⟩ := addressOf_eq_ok hAgrees hName hAddress
  rintro ⟨found, hParse, hLeaf⟩
  rw [parse_joinPath hBase hWellFormed hSlash, Except.ok.injEq] at hParse
  subst hParse
  rw [List.map_append, List.map_singleton, hSegment, ← hName] at hLeaf
  unfold nodeAgrees at hAgrees
  rw [Bool.and_eq_true] at hAgrees
  cases hShape : node.kind with
  | leaf kind => exact hKind kind hShape
  | container =>
    simp only [hShape, Option.isNone_iff_eq_none] at hAgrees
    rw [hAgrees.2] at hLeaf
    cases hLeaf
  | list key =>
    simp only [hShape, Bool.and_eq_true, Option.isNone_iff_eq_none] at hAgrees
    rw [hAgrees.2.1.1] at hLeaf
    cases hLeaf

/-! ## Lookups in the editor -/

namespace Editor

theorem getElem?_removeAll (e : Editor) (paths : List GoString) (path : GoString) :
    (e.removeAll paths).proposed[path]? = if path ∈ paths then none else e.proposed[path]? := by
  show (FinMap.eraseAll e.proposed paths)[path]? = _
  rw [FinMap.getElem?_eraseAll]
  by_cases hMem : path ∈ paths <;> simp [hMem]

theorem isWritable_removeAll (e : Editor) (paths : List GoString) (path : GoString) :
    (e.removeAll paths).isWritable path = (decide (path ∉ paths) && e.isWritable path) := by
  unfold isWritable
  rw [Std.ExtTreeMap.getD_eq_getD_getElem?, Std.ExtTreeMap.getD_eq_getD_getElem?]
  rw [show (e.removeAll paths).writable = FinMap.eraseAll e.writable paths from rfl,
    FinMap.getElem?_eraseAll]
  by_cases hMem : path ∈ paths <;> simp [hMem]

theorem getElem?_put (e : Editor) (path other : GoString) (value : Leaf) :
    (e.put path value).proposed[other]? =
      if path = other then some value else e.proposed[other]? :=
  FinMap.getElem?_insert_ite _ _ _ _

theorem isWritable_put (e : Editor) (path other : GoString) (value : Leaf) :
    (e.put path value).isWritable other = (decide (path = other) || e.isWritable other) := by
  unfold isWritable put
  rw [Std.ExtTreeMap.getD_eq_getD_getElem?, Std.ExtTreeMap.getD_eq_getD_getElem?,
    FinMap.getElem?_insert_ite]
  by_cases hPath : path = other <;> simp [hPath]

variable {e : Editor} {path : GoString} {document : Document} {after : Editor} {op : Op}

theorem mem_below {candidate : GoString} :
    candidate ∈ e.below path ↔
      candidate ∈ e.proposed ∧ e.isWritable candidate = true ∧ Below path candidate := by
  simp [below, Below, Std.ExtTreeMap.mem_keys]

/-! ## Steps -/

/-- What holds of a proposal throughout: the writable paths are the proposed ones that
are no state leaves, and every proposed path is a leaf path. -/
structure Sound (r : Router) (e : Editor) : Prop where
  writable_iff : ∀ path, e.isWritable path = true ↔ path ∈ e.proposed ∧ r.isState path = false
  leaves : ∀ path : GoString, path ∈ e.proposed → LeafPath path

/-- A step of the editor: nothing changes outside `inside`, no state leaf changes, and
a value is an old one or a settled one. -/
structure Touches (r : Router) (inside : GoString → Prop) (before after : Editor) : Prop where
  sound : Sound r after
  outside : ∀ path : GoString, ¬ inside path → after.proposed[path]? = before.proposed[path]?
  state : ∀ path : GoString, r.isState path = true →
    after.proposed[path]? = before.proposed[path]?
  values : ∀ (path : GoString) value, after.proposed[path]? = some value →
    before.proposed[path]? = some value ∨ Settled r path value

variable {r : Router}

namespace Touches

variable {inside : GoString → Prop}

theorem refl {e : Editor} (hSound : Sound r e) :
    Touches r inside e e :=
  ⟨hSound, fun _ _ => rfl, fun _ _ => rfl, fun _ _ hValue => Or.inl hValue⟩

theorem trans {first second third : Editor} (hFirst : Touches r inside first second)
    (hSecond : Touches r inside second third) :
    Touches r inside first third where
  sound := hSecond.sound
  outside path hOutside := (hSecond.outside path hOutside).trans (hFirst.outside path hOutside)
  state path hState := (hSecond.state path hState).trans (hFirst.state path hState)
  values path value hValue := by
    rcases hSecond.values path value hValue with hOld | hSettled
    · exact hFirst.values path value hOld
    · exact Or.inr hSettled

theorem mono {wider : GoString → Prop} {before after : Editor}
    (hTouches : Touches r inside before after) (hWider : ∀ path, inside path → wider path) :
    Touches r wider before after :=
  { hTouches with outside := fun path hOutside =>
      hTouches.outside path fun hInside => hOutside (hWider path hInside) }

end Touches

variable {inside : GoString → Prop} {value : Leaf} {kind : LeafKind}

/-- Removing paths that are writable, or that the proposal does not hold. -/
theorem touches_removeAll {paths : List GoString} (hSound : Sound r e)
    (hInside : ∀ path ∈ paths, path ∈ e.proposed → inside path)
    (hRemovable : ∀ path ∈ paths, e.isWritable path = true ∨ path ∉ e.proposed) :
    Touches r inside e (e.removeAll paths) where
  sound :=
    { writable_iff := by
        intro path
        rw [isWritable_removeAll, Bool.and_eq_true, decide_eq_true_eq, hSound.writable_iff,
          FinMap.mem_iff_isSome, FinMap.mem_iff_isSome, getElem?_removeAll]
        by_cases hGone : path ∈ paths <;> simp [hGone]
      leaves := by
        intro path hMem
        rw [FinMap.mem_iff_isSome, getElem?_removeAll] at hMem
        by_cases hGone : path ∈ paths
        · simp [hGone] at hMem
        · rw [if_neg hGone, ← FinMap.mem_iff_isSome] at hMem
          exact hSound.leaves path hMem }
  outside := by
    intro path hOutside
    rw [getElem?_removeAll]
    by_cases hGone : path ∈ paths
    · have hAbsent : path ∉ e.proposed := fun hMem => hOutside (hInside path hGone hMem)
      rw [FinMap.mem_iff_isSome, Option.not_isSome_iff_eq_none] at hAbsent
      rw [if_pos hGone, hAbsent]
    · rw [if_neg hGone]
  state := by
    intro path hState
    rw [getElem?_removeAll]
    by_cases hGone : path ∈ paths
    · rw [if_pos hGone]
      rcases hRemovable path hGone with hWritable | hAbsent
      · rw [((hSound.writable_iff path).mp hWritable).2] at hState
        cases hState
      · rw [FinMap.mem_iff_isSome, Option.not_isSome_iff_eq_none] at hAbsent
        exact hAbsent.symm
    · rw [if_neg hGone]
  values := by
    intro path value hValue
    rw [getElem?_removeAll] at hValue
    by_cases hGone : path ∈ paths
    · simp [hGone] at hValue
    · rw [if_neg hGone] at hValue
      exact Or.inl hValue

theorem touches_put (hSound : Sound r e) (hInside : inside path) (hSettled : Settled r path value) :
    Touches r inside e (e.put path value) where
  sound :=
    { writable_iff := by
        intro other
        rw [isWritable_put, Bool.or_eq_true, decide_eq_true_eq, hSound.writable_iff,
          FinMap.mem_iff_isSome, FinMap.mem_iff_isSome, getElem?_put]
        by_cases hPath : path = other
        · subst hPath
          simp [hSettled.not_state]
        · simp [hPath]
      leaves := by
        intro other hMem
        rw [FinMap.mem_iff_isSome, getElem?_put] at hMem
        by_cases hPath : path = other
        · exact hPath ▸ hSettled.leafPath
        · rw [if_neg hPath, ← FinMap.mem_iff_isSome] at hMem
          exact hSound.leaves other hMem }
  outside := by
    intro other hOutside
    rw [getElem?_put, if_neg]
    rintro rfl
    exact hOutside hInside
  state := by
    intro other hState
    rw [getElem?_put, if_neg]
    rintro rfl
    rw [hSettled.not_state] at hState
    cases hState
  values := by
    intro other found hValue
    rw [getElem?_put] at hValue
    by_cases hPath : path = other
    · subst hPath
      rw [if_pos rfl] at hValue
      cases hValue
      exact Or.inr hSettled
    · rw [if_neg hPath] at hValue
      exact Or.inl hValue

theorem settled_of_leafValue_eq_ok (hValue : leafValue r path document kind = .ok value) :
    Settled r path value := by
  unfold leafValue at hValue
  split at hValue
  · cases hValue
  · next read _ =>
    split at hValue
    · next converted hConvert =>
      cases hValue
      exact ⟨converted, convert_of_convert_eq_ok hConvert, rfl⟩
    · split at hValue
      · cases hValue
      · split at hValue <;> cases hValue

/-- A leaf document removes its leaf or puts a settled value there. -/
theorem touches_leaf (hSound : Sound r e) (hLeaf : leaf r e path document kind op = .ok after) :
    Touches r (fun other => other = path) e after := by
  have hPut : ∀ {wanted : Op}, (do
      let value ← leafValue r path document kind
      if wanted = .create && e.isWritable path then .error (dataExists path)
      else .ok (e.put path value) : Except Err Editor) = .ok after →
      Touches r (fun other => other = path) e after := by
    intro wanted hWritten
    obtain ⟨value, hValue, hRest⟩ := bind_eq_ok_iff.mp hWritten
    split at hRest
    · cases hRest
    · cases hRest
      exact touches_put hSound rfl (settled_of_leafValue_eq_ok hValue)
  cases op with
  | none =>
    cases hLeaf
    exact .refl hSound
  | delete =>
    simp only [leaf] at hLeaf
    split at hLeaf
    · next hWritable =>
      cases hLeaf
      exact touches_removeAll hSound (by simp) (by simp [hWritable])
    · split at hLeaf <;> cases hLeaf
  | remove =>
    simp only [leaf] at hLeaf
    split at hLeaf
    · cases hLeaf
    · next hRemovable =>
      cases hLeaf
      refine touches_removeAll hSound (by simp) ?_
      intro other hOther
      rw [List.mem_singleton] at hOther
      subst hOther
      by_cases hMem : other ∈ e.proposed
      · left
        simpa [hMem] using hRemovable
      · exact Or.inr hMem
  | merge | replace | create => exact hPut hLeaf

/-- Clearing a subtree removes its writable leaves and nothing else. -/
theorem touches_wipe (hSound : Sound r e) (hPath : ¬ LeafPath path) :
    Touches r (Below path) e (e.wipe path) := by
  refine touches_removeAll hSound ?_ ?_
  · intro other hOther hMem
    rcases List.mem_append.mp hOther with hBelow | hSelf
    · exact (mem_below.mp hBelow).2.2
    · rw [List.mem_singleton] at hSelf
      subst hSelf
      exact absurd (hSound.leaves _ hMem) hPath
  · intro other hOther
    rcases List.mem_append.mp hOther with hBelow | hSelf
    · exact Or.inl (mem_below.mp hBelow).2.1
    · rw [List.mem_singleton] at hSelf
      subst hSelf
      exact Or.inr fun hMem => hPath (hSound.leaves _ hMem)

theorem touches_prepareSubtree (hSound : Sound r e) (hPath : ¬ LeafPath path)
    (hPrepare : e.prepareSubtree path op = .ok after) :
    Touches r (Below path) e after := by
  cases op with
  | create =>
    simp only [prepareSubtree] at hPrepare
    split at hPrepare <;> cases hPrepare
    exact .refl hSound
  | delete =>
    simp only [prepareSubtree] at hPrepare
    split at hPrepare <;> cases hPrepare
    exact touches_wipe hSound hPath
  | remove | replace =>
    cases hPrepare
    exact touches_wipe hSound hPath
  | merge | none =>
    cases hPrepare
    exact .refl hSound

theorem touches_enter {name : GoString} {walkChildren : List Node → Editor → Except Err Editor}
    (hSound : Sound r e) (hPath : ¬ LeafPath path)
    (hEnter : e.enter path name op walkChildren = .ok after)
    (hChildren : ∀ nodes prepared, childrenOf path = .ok nodes → Sound r prepared →
      walkChildren nodes prepared = .ok after → Touches r (Below path) prepared after) :
    Touches r (Below path) e after := by
  obtain ⟨prepared, hPrepare, hRest⟩ := bind_eq_ok_iff.mp hEnter
  have hPrepared := touches_prepareSubtree hSound hPath hPrepare
  split at hRest
  · cases hRest
    exact hPrepared
  · cases hBelow : childrenOf path with
    | error err =>
      rw [hBelow] at hRest
      cases hRest
    | ok nodes =>
      rw [hBelow] at hRest
      exact hPrepared.trans (hChildren nodes prepared hBelow hPrepared.sound hRest)

/-- The subtree a document names below `base`, by the schema there. -/
def NamedBy (base : GoString) (schema : List Node) (document : Document) (path : GoString) :
    Prop :=
  ∃ node root, nodeNamed schema document.name = some node ∧
    addressOf base document node = .ok root ∧ Covers node root path

/-- What a child names lies inside the subtree of its parent. -/
theorem below_of_namedBy {base root : GoString} {schema nodes : List Node} {child : Document}
    {node : Node} (hSchema : childrenOf base = .ok schema)
    (hNode : nodeNamed schema document.name = some node)
    (hAddress : addressOf base document node = .ok root) (hBelow : childrenOf root = .ok nodes)
    (hNamed : NamedBy root nodes child path) : Below root path := by
  obtain ⟨hMem, hName⟩ := nodeNamed_eq_some hNode
  obtain ⟨_, _, hAgree⟩ := nodeAgrees_of_childrenOf_eq_ok hSchema
  obtain ⟨segment, hSegment, hWellFormed, _, hRoot⟩ :=
    addressOf_eq_ok (hAgree node hMem) hName hAddress
  have hNonempty : root ≠ [] := by
    rw [hRoot]
    refine joinPath_ne_nil ?_
    unfold Segment.text
    split <;> simp [hWellFormed.1]
  obtain ⟨childNode, childRoot, hChild, hChildAddress, hInside⟩ := hNamed
  obtain ⟨hChildMem, hChildName⟩ := nodeNamed_eq_some hChild
  obtain ⟨_, _, hChildAgree⟩ := nodeAgrees_of_childrenOf_eq_ok hBelow
  obtain ⟨childSegment, _, _, _, rfl⟩ :=
    addressOf_eq_ok (hChildAgree childNode hChildMem) hChildName hChildAddress
  exact below_of_covers_joinPath hNonempty hInside

mutual

/-- A walk along a document stays inside the subtree the document names. -/
theorem touches_walk : ∀ (document : Document) (base : GoString) (schema : List Node)
    (inherited : Op) (e after : Editor), childrenOf base = .ok schema → Sound r e →
    walk r document base schema inherited e = .ok after →
    Touches r (NamedBy base schema document) e after
  | .mk name text attrs children, base, schema, inherited, e, after, hSchema, hSound, hWalk => by
      rw [walk] at hWalk
      dsimp only at hWalk
      cases hNode : nodeNamed schema name with
      | none =>
        rw [hNode] at hWalk
        cases hWalk
      | some node =>
        rw [hNode] at hWalk
        obtain ⟨explicit, _, hWalk⟩ := bind_eq_ok_iff.mp hWalk
        obtain ⟨root, hAddress, hWalk⟩ := bind_eq_ok_iff.mp hWalk
        have hNamed : nodeNamed schema (Document.mk name text attrs children).name =
            some node := hNode
        have hInside : ∀ path, Covers node root path →
            NamedBy base schema (.mk name text attrs children) path :=
          fun path hPath => ⟨node, root, hNode, hAddress, hPath⟩
        have hSubtree : (∀ kind, node.kind ≠ .leaf kind) →
            e.enter root name (explicit.getD inherited) (fun nodes prepared =>
              walkAll r children root nodes (childOperation (explicit.getD inherited))
                prepared) = .ok after →
            Touches r (Below root) e after := by
          intro hKind hEnter
          refine touches_enter hSound (not_leafPath_of_addressOf hSchema hNamed hKind hAddress)
            hEnter ?_
          intro nodes prepared hBelow hPrepared hChildren
          refine (touches_walkAll children root nodes _ prepared after hBelow hPrepared
            hChildren).mono ?_
          rintro path ⟨child, _, hChild⟩
          exact below_of_namedBy hSchema hNamed hAddress hBelow hChild
        refine Touches.mono ?_ hInside
        cases hKind : node.kind with
        | leaf kind =>
          rw [hKind] at hWalk
          exact (touches_leaf hSound hWalk).mono fun path => (covers_leaf_iff hKind path).mpr
        | container | list key =>
          rw [hKind] at hWalk
          exact (hSubtree (by simp [hKind]) hWalk).mono fun path =>
            (covers_inner_iff (by simp [hKind]) path).mpr

theorem touches_walkAll : ∀ (documents : List Document) (base : GoString) (schema : List Node)
    (inherited : Op) (e after : Editor), childrenOf base = .ok schema → Sound r e →
    walkAll r documents base schema inherited e = .ok after →
    Touches r (fun path => ∃ document ∈ documents, NamedBy base schema document path) e after
  | [], _, _, _, _, _, _, hSound, hWalk => by
      rw [walkAll, Except.ok.injEq] at hWalk
      subst hWalk
      exact .refl hSound
  | document :: rest, base, schema, inherited, e, after, hSchema, hSound, hWalk => by
      rw [walkAll] at hWalk
      cases hFirst : walk r document base schema inherited e with
      | error err =>
        rw [hFirst] at hWalk
        cases hWalk
      | ok next =>
        rw [hFirst] at hWalk
        have hStep := touches_walk document base schema inherited e next hSchema hSound hFirst
        have hRest := touches_walkAll rest base schema inherited next after hSchema hStep.sound
          hWalk
        refine (hStep.mono ?_).trans (hRest.mono ?_)
        · exact fun path hNamed => ⟨document, List.mem_cons_self .., hNamed⟩
        · rintro path ⟨other, hOther, hNamed⟩
          exact ⟨other, List.mem_cons_of_mem _ hOther, hNamed⟩

end

end Editor

end Datatree
end TriadSim
