import TriadSim.Datatree.Leaves
import TriadSim.Restconf.Target

/-!
# URLs and router paths

`parseTarget` decodes the segments of a URL and puts them together to a router path again. The
names come from the schema, but a decoded key is put into its predicate as it is.  The path has
exactly the segments of the URL if and only if no key holds a slash or a bracket.  The main result
is `parseTarget_spells_url_iff`.
-/

namespace TriadSim
namespace Restconf

open Datatree Go Library Router

/-- The segments of the data path of a URL, still escaped. -/
def urlParts (address : Address) : List GoString :=
  match resolveAddressing address with
  | .error _ => []
  | .ok (_, raw, _) => if trimByte raw 47 = [] then [] else split (trimByte raw 47) 47

/-- The decoded key of a URL segment can stand in a predicate. -/
def KeyFits (part : GoString) : Prop :=
  match splitSegment part with
  | .ok (_, _, value) => 47 ∉ value ∧ 91 ∉ value ∧ 93 ∉ value
  | .error _ => True

instance decidableKeyFits (part : GoString) : Decidable (KeyFits part) := by
  unfold KeyFits
  split <;> infer_instance

def isList : NodeKind → Bool
  | .list _ => true
  | _ => false

/-- The decoded names of a URL lead to a list, and its last segment has no key for it. -/
def namesList : List SchemaNode → List GoString → Bool
  | _, [] => false
  | nodes, part :: rest =>
    match splitSegment part with
    | .error _ => false
    | .ok (_, name, value) =>
      (childNamed nodes name).any fun child =>
        if rest.isEmpty then decide (value = []) && isList child.node.kind
        else namesList child.children rest

/-- A segment of a router path spells a URL segment: it has the decoded name and the decoded
key value. -/
def Spells (part : GoString) (segment : Segment) : Prop :=
  ∃ module, splitSegment part = .ok (module, segment.name, segment.value)

/-- A segment of a router path spells no key that does not fit. -/
theorem keyFits_of_spells {part path : GoString} {segment : Segment} {segments : List Segment}
    (hParse : parse path = .ok segments) (hMem : segment ∈ segments)
    (hSpells : Spells part segment) : KeyFits part := by
  obtain ⟨module, hSplit⟩ := hSpells
  obtain ⟨⟨_, hForm⟩, hSlash⟩ := wellFormed_of_mem_parse hParse hMem
  rw [KeyFits, hSplit]
  rcases hForm with ⟨_, hValue, _⟩ | ⟨hKey, _, _, _, _, _, _, hOpen, hClose⟩
  · simp [hValue]
  · rw [Segment.text, if_neg hKey] at hSlash
    exact ⟨fun hMem => hSlash (by simp [hMem]), hOpen, hClose⟩

/-- The segment an address consists of. -/
theorem addressNode_segment {names : List GoString} {node : Node} {name value canonical : GoString}
    {last collection : Bool} {segment : Segment}
    (hAgrees : nodeAgrees Model.Device.fields names node = true) (hName : node.name = name)
    (hSlash : 47 ∉ value) (hOpen : 91 ∉ value) (hClose : 93 ∉ value)
    (hAddress : addressNode node name value last = .ok (segment, canonical, collection)) :
    segment.name = name ∧ segment.value = value ∧ canonical = segment.text ∧
      segment.WellFormed ∧ 47 ∉ segment.text ∧
      collection = (decide (value = []) && isList node.kind) ∧
      (collection = true → last = true) := by
  unfold nodeAgrees at hAgrees
  rw [Bool.and_eq_true, hName] at hAgrees
  obtain ⟨hPlain, hKind⟩ := hAgrees
  obtain ⟨hNonempty, hNameSlash, hNameOpen, hNameClose⟩ := plainName_iff hPlain
  have hBare : (⟨name, [], []⟩ : Segment).WellFormed := ⟨hNonempty, Or.inl ⟨rfl, rfl, hNameOpen⟩⟩
  have hBareSlash : 47 ∉ (⟨name, [], []⟩ : Segment).text := by
    simpa [Segment.text] using hNameSlash
  unfold addressNode at hAddress
  cases hNode : node.kind with
  | list key =>
    simp only [hNode, Bool.and_eq_true, Bool.not_eq_true', List.contains_eq_mem,
      decide_eq_false_iff_not] at hAddress hKind
    obtain ⟨⟨_, hKeyPlain⟩, hEquals⟩ := hKind
    obtain ⟨hKeyNonempty, hKeySlash, hKeyOpen, hKeyClose⟩ := plainName_iff hKeyPlain
    split at hAddress
    · next hEmpty =>
      split at hAddress
      · next hLast =>
        cases hAddress
        exact ⟨rfl, hEmpty.symm, by simp [Segment.text], hBare, hBareSlash,
          by simp [hEmpty, isList], fun _ => hLast⟩
      · cases hAddress
    · next hSome =>
      cases hAddress
      refine ⟨rfl, rfl, ?_, ⟨hNonempty, Or.inr ⟨hKeyNonempty, hSome, hEquals, hNameOpen,
        hNameClose, hKeyOpen, hKeyClose, hOpen, hClose⟩⟩, ?_, by simp [hSome], by simp⟩
      · simp [Segment.text, hKeyNonempty]
      · simp [Segment.text, hKeyNonempty, hNameSlash, hKeySlash, hSlash]
  | container | leaf kind =>
    simp only [hNode] at hAddress
    split at hAddress
    · next hEmpty =>
      cases hAddress
      exact ⟨rfl, hEmpty.symm, by simp [Segment.text], hBare, hBareSlash, by simp [isList], by simp⟩
    · cases hAddress

/-- One round of `parseTarget` appends one segment, which spells its part of the URL and has its
name from the schema. -/
theorem extend_spells {target next : Target} {parent part : GoString} {last : Bool}
    {segments : List Segment} (hExtend : extend target parent part last = .ok next)
    (hParent : baseSegments parent = .ok segments) (hKey : KeyFits part) :
    ∃ segment nodes child, parse next.path = .ok (segments ++ [segment]) ∧ Spells part segment ∧
      SchemaBelow segments nodes ∧ childNamed nodes segment.name = some child ∧
      next.collection = (decide (segment.value = []) && isList child.node.kind) ∧
      (next.collection = true → last = true) := by
  obtain ⟨⟨module, name, value⟩, hSplit, hExtend⟩ := bind_eq_ok_iff.mp hExtend
  simp only [KeyFits, hSplit] at hKey
  obtain ⟨hSlash, hOpen, hClose⟩ := hKey
  dsimp only at hExtend
  split at hExtend
  · cases hExtend
  obtain ⟨node, hNode, hExtend⟩ := bind_eq_ok_iff.mp hExtend
  obtain ⟨⟨segment, canonical, collection⟩, hAddress, hExtend⟩ := bind_eq_ok_iff.mp hExtend
  dsimp only at hExtend
  split at hExtend
  · cases hExtend
  cases hExtend
  obtain ⟨children, hChildren, hNamed⟩ := childNode_eq_ok hNode
  obtain ⟨hMem, hName⟩ := nodeNamed_eq_some hNamed
  obtain ⟨found, hFound, hAgree⟩ := nodeAgrees_of_childrenOf_eq_ok hChildren
  obtain ⟨rfl, rfl, rfl, hWellFormed, hTextSlash, hCollection, hLast⟩ :=
    addressNode_segment (hAgree node hMem) hName hSlash hOpen hClose hAddress
  obtain ⟨nodes, hBelow, rfl⟩ := exists_schemaBelow_of_childrenOf hParent hChildren
  rw [nodeNamed_map] at hNamed
  obtain ⟨child, hChild, rfl⟩ := Option.map_eq_some_iff.mp hNamed
  exact ⟨segment, nodes, child, parse_joinPath hParent hWellFormed hTextSlash, ⟨module, hSplit⟩,
    hBelow, hChild, hCollection, hLast⟩

/-- The loop of `parseTarget`: the path of the target goes on as the parts of the URL do, and it
is that of a whole list if they name one. -/
theorem parseParts_spells {parts : List GoString} {target result : Target} {parent : GoString}
    {segments : List Segment} (hParse : parseParts parts target parent = .ok result)
    (hPath : target.path = parent) (hParent : baseSegments parent = .ok segments)
    (hWhole : target.collection = false) (hKeys : ∀ part ∈ parts, KeyFits part) :
    ∃ more, baseSegments result.path = .ok (segments ++ more) ∧ List.Forall₂ Spells parts more ∧
      ((∃ nodes, SchemaBelow segments nodes ∧ result.collection = namesList nodes parts) ∨
        parts = [] ∧ result.collection = false) := by
  induction parts generalizing target parent segments with
  | nil =>
    cases hParse
    refine ⟨[], ?_, List.Forall₂.nil, Or.inr ⟨rfl, hWhole⟩⟩
    rw [hPath, List.append_nil, hParent]
  | cons part rest ih =>
    obtain ⟨next, hExtend, hParse⟩ := bind_eq_ok_iff.mp hParse
    obtain ⟨segment, nodes, child, hNext, ⟨module, hSplit⟩, hBelow, hChild, hCollection, hLast⟩ :=
      extend_spells hExtend hParent (hKeys part List.mem_cons_self)
    have hBase := baseSegments_of_parse_eq_ok hNext
    have hNames : namesList nodes (part :: rest) =
        if rest.isEmpty then next.collection else namesList child.children rest := by
      rw [namesList, hSplit]
      simp only [hChild, Option.any_some, hCollection]
    split at hParse
    · next hStop =>
      -- a whole list ends the loop, and it is only accepted in the last part
      cases hParse
      have hEnd := hLast hStop
      rw [List.isEmpty_iff] at hEnd
      subst hEnd
      exact ⟨[segment], hBase, .cons ⟨module, hSplit⟩ .nil, Or.inl ⟨nodes, hBelow, hNames.symm⟩⟩
    · next hGo =>
      obtain ⟨more, hMore, hRest, hEnd⟩ := ih hParse rfl hBase (by simpa using hGo)
        fun other hOther => hKeys other (List.mem_cons_of_mem part hOther)
      refine ⟨segment :: more, by rw [hMore, List.append_assoc]; rfl,
        .cons ⟨module, hSplit⟩ hRest, Or.inl ⟨nodes, hBelow, ?_⟩⟩
      cases rest with
      | nil =>
        -- the loop ended with this part, which is no whole list
        cases hParse
        exact hNames.symm
      | cons second others =>
        obtain ⟨deeper, hDeeper, hSame⟩ := hEnd.resolve_right (by simp)
        obtain ⟨middle, hMiddle, hRest⟩ := descend_append_eq_ok_iff.mp hDeeper
        cases hBelow.symm.trans hMiddle
        obtain ⟨inner, hInner, _, _, hDone⟩ := descend_cons_eq_ok_iff.mp hRest
        cases hChild.symm.trans hInner
        cases hDone
        rw [hSame, hNames]
        rfl

/-- The router path of an accepted URL has one segment for each of the URL, with the decoded
name and the decoded key value, and no segment with an equals sign becomes a whole list, exactly
if no decoded key holds a slash or a bracket and a URL that names a list without a key does not
end with an equals sign. -/
theorem parseTarget_spells_url_iff (address : Address) (target : Target)
    (hParse : parseTarget address = .ok target) :
    ((∃ segments, baseSegments target.path = .ok segments ∧
        List.Forall₂ Spells (urlParts address) segments) ∧
      (target.collection = true → ∀ part ∈ (urlParts address).getLast?, 61 ∉ part)) ↔
    (∀ part ∈ urlParts address, KeyFits part) ∧
      (namesList deviceSchema (urlParts address) = true →
        ∀ part ∈ (urlParts address).getLast?, 61 ∉ part) := by
  have hFits : (∀ part ∈ urlParts address, KeyFits part) →
      (∃ segments, baseSegments target.path = .ok segments ∧
        List.Forall₂ Spells (urlParts address) segments) ∧
      target.collection = namesList deviceSchema (urlParts address) := by
    obtain ⟨⟨base, raw, datastore⟩, hAddressing, hParse⟩ := bind_eq_ok_iff.mp hParse
    obtain ⟨content, _, hParse⟩ := bind_eq_ok_iff.mp hParse
    dsimp only at hParse
    rw [urlParts, hAddressing]
    dsimp only
    split at hParse
    · next hRoot =>
      cases hParse
      rw [if_pos hRoot]
      exact fun _ => ⟨⟨[], rfl, .nil⟩, rfl⟩
    · next hSome =>
      rw [if_neg hSome]
      intro hKeys
      obtain ⟨more, hMore, hSpells, ⟨nodes, hBelow, hSame⟩ | ⟨hNone, hSame⟩⟩ :=
        parseParts_spells hParse rfl rfl rfl hKeys
      · cases hBelow
        exact ⟨⟨more, hMore, hSpells⟩, hSame⟩
      · rw [hNone] at hSpells ⊢
        exact ⟨⟨more, hMore, hSpells⟩, hSame⟩
  constructor
  · rintro ⟨⟨segments, hBase, hSpells⟩, hWhole⟩
    have hKeys : ∀ part ∈ urlParts address, KeyFits part := by
      intro part hPart
      obtain ⟨segment, hMem, hOne⟩ := exists_of_mem_right hSpells.flip hPart
      rcases baseSegments_eq_ok hBase with ⟨_, rfl⟩ | ⟨_, hParse⟩
      · cases hMem
      · exact keyFits_of_spells hParse hMem hOne
    exact ⟨hKeys, (hFits hKeys).2 ▸ hWhole⟩
  · rintro ⟨hKeys, hWhole⟩
    exact ⟨(hFits hKeys).1, (hFits hKeys).2 ▸ hWhole⟩

/-- A request for a resource of running. -/
def dataAddress (path : GoString) : Address :=
  ⟨text "/restconf/data/" ++ path, [], []⟩

theorem parseTarget_spells_vlan_url :
    ∃ target, parseTarget (dataAddress "vlans/vlan=7") = .ok target ∧
      ∃ segments, baseSegments target.path = .ok segments ∧
        List.Forall₂ Spells (urlParts (dataAddress "vlans/vlan=7")) segments := by
  have hOk : (parseTarget (dataAddress "vlans/vlan=7")).isOk = true := by decide +kernel
  cases hParse : parseTarget (dataAddress "vlans/vlan=7") with
  | error err =>
    rw [hParse] at hOk
    cases hOk
  | ok target =>
    exact ⟨target, rfl, ((parseTarget_spells_url_iff _ target hParse).mpr
      ⟨by decide +kernel, fun hList => absurd hList (by decide +kernel)⟩).1⟩

/-- A decoded key with a closing bracket and a slash goes on behind the list entry: two URL
segments become three segments of the path.  A key that is empty addresses the whole list. -/
theorem parseTarget_injects_decoded_key :
    ((parseTarget (dataAddress "vlans/vlan=1%5D%2Fx%5By%3Dz")).toOption.map fun target =>
        (target.path, (parse target.path).toOption.map List.length)) =
          some (text "vlans/vlan[id=1]/x[y=z]", some 3) ∧
      (urlParts (dataAddress "vlans/vlan=1%5D%2Fx%5By%3Dz")).length = 2 ∧
      ((parseTarget (dataAddress "vlans/vlan=")).toOption.map Target.collection) = some true ∧
      urlParts (dataAddress "vlans/vlan=") = [text "vlans", text "vlan="] := by
  decide +kernel

end Restconf
end TriadSim
