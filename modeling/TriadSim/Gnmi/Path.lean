import TriadSim.Library.FinMap
import TriadSim.Router.Modules
import TriadSim.Router.Schema

/-!
# gNMI paths

`internal/gnmi/path.go`: a gNMI path is a list of elements with their keys, and a router path is
text.  A path is rendered as text and only the text is checked, so that an element whose name or
key holds a character of the grammar can be read back as something else.
`gnmiPath_routerPath_faithful` says for which elements it is read back as it was.
-/

namespace TriadSim
namespace Gnmi

open Go Library Router

/-! ## Status errors -/

/-- The status codes the server answers with. -/
inductive Code where
  | canceled
  | deadlineExceeded
  | invalidArgument
  | notFound
  | permissionDenied
  | alreadyExists
  | unimplemented
  | internal
  deriving DecidableEq, Repr

/-- `status.Error`. -/
structure Status where
  code : Code
  message : Err
  deriving DecidableEq, Repr

def invalidArgument (message : Err) : Status :=
  ⟨.invalidArgument, message⟩

/-! ## Elements -/

/-- `gnmi.PathElem`. -/
structure PathElem where
  name : GoString
  key : Std.ExtTreeMap GoString GoString

/-- `gnmi.Path`, with the deprecated list of strings. -/
structure Path where
  origin : GoString
  elem : List PathElem
  element : List GoString

/-- `modules`. -/
def modules : List Module :=
  [moduleDevice, moduleRadioLink, moduleL2, moduleSync]

/-- `originAccepted`. -/
def originAccepted (origin : GoString) : Bool :=
  origin = [] || modules.any fun module => origin = module.name || origin = module.space

/-- `stripModule`. -/
def stripModule (name : GoString) : GoString :=
  ((cut name 58).map Prod.snd).getD name

/-- One round of the loop of `elementsToPath`. -/
def elementText (elem : PathElem) : Except Status GoString :=
  let name := stripModule elem.name
  if name = [] then .error (invalidArgument (.text "path element has no name"))
  else
    match elem.key.toList with
    | [] => .ok name
    | [(key, value)] =>
      if value = [] then
        .error (invalidArgument
          (.text ("path element " ++ name ++ " has an empty " ++ key ++ " key")))
      else .ok (name ++ [91] ++ key ++ [61] ++ value ++ [93])
    | keys =>
      .error (invalidArgument (.text ("path element " ++ name ++ " has ") ++
        .piece (.decimal keys.length) ++
        .text " keys; the model addresses list entries by one key"))

/-- The check of a joined path. -/
def checkJoined (joined : GoString) : Except Status GoString :=
  match parse joined with
  | .ok _ => .ok joined
  | .error err =>
    .error (invalidArgument (.text "invalid path " ++ .piece (.quoted joined) ++ .text ": " ++
      err.asText))

/-- `elementsToPath`. -/
def elementsToPath (elems : List PathElem) : Except Status GoString := do
  let segments ← elems.mapM elementText
  checkJoined (join segments 47)

/-- `routerPath`; a path that is not there is the root. -/
def routerPath : Option Path → Except Status GoString
  | none => .ok []
  | some path =>
    if !originAccepted path.origin then
      .error (invalidArgument (.text "unknown origin " ++ .piece (.quoted path.origin)))
    else if path.elem ≠ [] then elementsToPath path.elem
    else if path.element ≠ [] then checkJoined (join path.element 47)
    else .ok []

/-- The element of a segment. -/
def elemOf (segment : Segment) : PathElem :=
  ⟨segment.name, if segment.key = [] then ∅
    else (∅ : Std.ExtTreeMap GoString GoString).insert segment.key segment.value⟩

/-- `gnmiPath`. -/
def gnmiPath (path : GoString) : Except Err Path :=
  if path = [] then .ok ⟨[], [], []⟩
  else
    match parse path with
    | .error err =>
      .error (.text "gnmi: convert path " ++ .piece (.quoted path) ++ .text ": " ++ err)
    | .ok segments => .ok ⟨[], segments.map elemOf, []⟩

theorem gnmiPath_of_baseSegments {path : GoString} {segments : List Segment}
    (hBase : baseSegments path = .ok segments) :
    gnmiPath path = .ok ⟨[], segments.map elemOf, []⟩ := by
  rcases baseSegments_eq_ok hBase with ⟨rfl, rfl⟩ | ⟨hPath, hParse⟩
  · rfl
  · rw [gnmiPath, if_neg hPath, hParse]

/-! ## Reading back -/

/-- No character of an element is taken for a piece of the grammar in a place where the
grammar has it: neither a slash anywhere, nor an opening bracket in the name, nor an equals
sign in the name of a key. -/
structure PathElem.Plain (elem : PathElem) : Prop where
  name : 47 ∉ stripModule elem.name ∧ 91 ∉ stripModule elem.name
  key : ∀ entry ∈ elem.key.toList, 47 ∉ entry.1 ∧ 61 ∉ entry.1 ∧ 47 ∉ entry.2

/-- An element as it comes back: without the prefix of the module. -/
def PathElem.stripped (elem : PathElem) : PathElem :=
  ⟨stripModule elem.name, elem.key⟩

theorem eq_insert_of_toList_eq {keys : Std.ExtTreeMap GoString GoString} {key value : GoString}
    (hKeys : keys.toList = [(key, value)]) :
    keys = (∅ : Std.ExtTreeMap GoString GoString).insert key value := by
  refine Std.ExtTreeMap.ext_getElem? fun other => ?_
  rw [FinMap.getElem?_insert_ite]
  have hMem : ∀ found, keys[other]? = some found ↔ (other, found) = (key, value) := by
    intro found
    rw [← Std.ExtTreeMap.mem_toList_iff_getElem?_eq_some, hKeys, List.mem_singleton]
  split
  · next hSame =>
    rw [hMem, hSame]
  · next hOther =>
    cases hFound : keys[other]? with
    | none => simp
    | some found =>
      obtain ⟨hKey, _⟩ := Prod.mk.inj ((hMem found).mp hFound)
      exact absurd hKey.symm hOther

/-- Two ways to read a text around the first occurrence of a byte are the same. -/
theorem append_cons_inj {first second left right : GoString} {byte : UInt8} (hFirst : byte ∉ first)
    (hSecond : byte ∉ second) (hSame : first ++ byte :: left = second ++ byte :: right) :
    first = second ∧ left = right := by
  have hLeft : cut (first ++ byte :: left) byte = some (first, left) :=
    cut_eq_some_iff.mpr ⟨rfl, hFirst⟩
  have hRight : cut (second ++ byte :: right) byte = some (second, right) :=
    cut_eq_some_iff.mpr ⟨rfl, hSecond⟩
  rw [hSame, hRight, Option.some.injEq, Prod.mk.injEq] at hLeft
  exact ⟨hLeft.1.symm, hLeft.2.symm⟩

/-- The text of a plain element is one part of a path, and what it parses to is the element
again. -/
theorem elemOf_of_elementText_eq_ok {elem : PathElem} {part : GoString} (hPlain : elem.Plain)
    (hText : elementText elem = .ok part) :
    47 ∉ part ∧ ∀ segment, parseSegment part = .ok segment → elemOf segment = elem.stripped := by
  obtain ⟨⟨hNameSlash, hNameOpen⟩, hKey⟩ := hPlain
  unfold elementText at hText
  dsimp only at hText
  split at hText
  · cases hText
  · split at hText
    · next hNone =>
      cases hText
      refine ⟨hNameSlash, ?_⟩
      intro segment hSegment
      obtain ⟨⟨_, hForm⟩, hPart⟩ := wellFormed_of_parseSegment_eq_ok hSegment
      rcases hForm with ⟨hNoKey, _, _⟩ | ⟨hSomeKey, _⟩
      · rw [Segment.text, if_pos hNoKey] at hPart
        have hEmpty : elem.key = ∅ := by
          refine Std.ExtTreeMap.ext_toList ?_
          rw [hNone]
          rfl
        rw [elemOf, if_pos hNoKey, hPart, PathElem.stripped, hEmpty]
      · rw [Segment.text, if_neg hSomeKey] at hPart
        exact absurd (hPart ▸ by simp) hNameOpen
    · next key value hOne =>
      split at hText
      · cases hText
      · cases hText
        obtain ⟨hKeySlash, hKeyEquals, hValueSlash⟩ := hKey (key, value) (by simp [hOne])
        refine ⟨by simp [hNameSlash, hKeySlash, hValueSlash], ?_⟩
        intro segment hSegment
        obtain ⟨⟨_, hForm⟩, hPart⟩ := wellFormed_of_parseSegment_eq_ok hSegment
        rcases hForm with ⟨hNoKey, _, hOpen⟩ | ⟨hSomeKey, _, hEquals, hOpen, _⟩
        · rw [Segment.text, if_pos hNoKey] at hPart
          exact absurd (hPart ▸ by simp) hOpen
        · simp only [Segment.text, hSomeKey, if_false, List.append_assoc,
            List.singleton_append] at hPart
          obtain ⟨hName, hPredicate⟩ := append_cons_inj hOpen hNameOpen hPart
          obtain ⟨hSameKey, hBody⟩ := append_cons_inj hEquals hKeyEquals hPredicate
          have hSameValue := List.append_cancel_right hBody
          rw [elemOf, if_neg hSomeKey, hName, hSameKey, hSameValue, PathElem.stripped,
            eq_insert_of_toList_eq hOne]
    · cases hText

/-- The text of a segment is the text of its element, if its name has no colon. -/
theorem elementText_elemOf {segment : Segment} (hWellFormed : segment.WellFormed)
    (hColon : 58 ∉ segment.name) : elementText (elemOf segment) = .ok segment.text := by
  obtain ⟨hName, hForm⟩ := hWellFormed
  have hStrip : stripModule segment.name = segment.name := by
    rw [stripModule, cut_eq_none_iff.mpr hColon]
    rfl
  rcases hForm with ⟨hNoKey, _, _⟩ | ⟨hSomeKey, hValue, _⟩
  · have hKeys : (elemOf segment).key.toList = [] := by
      rw [elemOf, if_pos hNoKey]
      rfl
    simp only [elementText, hKeys]
    simp [elemOf, hStrip, hName, Segment.text, hNoKey]
  · have hKeys : (elemOf segment).key.toList = [(segment.key, segment.value)] := by
      rw [elemOf, if_neg hSomeKey]
      rfl
    simp only [elementText, hKeys]
    simp [elemOf, hStrip, hName, hValue, Segment.text, hSomeKey]

theorem checkJoined_eq_ok_iff {joined path : GoString} :
    checkJoined joined = .ok path ↔ path = joined ∧ ∃ segments, parse joined = .ok segments := by
  unfold checkJoined
  cases hParse : parse joined with
  | error err => simp
  | ok segments => simp [eq_comm]

/-- A path that has been rendered is read back element by element. -/
theorem elems_of_elementsToPath_eq_ok {elems : List PathElem} {path : GoString}
    (hElems : elems ≠ []) (hPlain : ∀ elem ∈ elems, elem.Plain)
    (hPath : elementsToPath elems = .ok path) :
    ∃ segments, parse path = .ok segments ∧ segments.map elemOf = elems.map PathElem.stripped := by
  obtain ⟨parts, hParts, hJoined⟩ := bind_eq_ok_iff.mp hPath
  obtain ⟨rfl, segments, hParse⟩ := checkJoined_eq_ok_iff.mp hJoined
  have hTexts := mapM_eq_ok_iff.mp hParts
  have hSlash : ∀ part ∈ parts, 47 ∉ part := by
    intro part hPart
    obtain ⟨elem, hElem, hText⟩ := exists_of_mem_right hTexts hPart
    exact (elemOf_of_elementText_eq_ok (hPlain elem hElem) hText).1
  have hSome : parts ≠ [] := by
    intro hNone
    rw [hNone, List.forall₂_nil_right_iff] at hTexts
    exact hElems hTexts
  have hSegments := parse_eq_ok_iff.mp hParse
  rw [split, join, List.splitOn_intercalate 47 hSlash hSome] at hSegments
  refine ⟨segments, hParse, ?_⟩
  -- part by part, from the elements over their texts to the segments
  clear hJoined hParse hParts hPath hElems hSome hSlash
  induction hTexts generalizing segments with
  | nil =>
    rw [List.forall₂_nil_left_iff] at hSegments
    rw [hSegments]
    rfl
  | cons hText _ ih =>
    rw [List.forall₂_cons_left_iff] at hSegments
    obtain ⟨segment, others, hSegment, hOthers, rfl⟩ := hSegments
    rw [List.map_cons, List.map_cons,
      (elemOf_of_elementText_eq_ok (hPlain _ List.mem_cons_self) hText).2 segment hSegment,
      ih (fun elem hElem => hPlain elem (List.mem_cons_of_mem _ hElem)) others hOthers]

/-- An element that is that of a segment is plain. -/
theorem plain_of_stripped_eq_elemOf {elem : PathElem} {segment : Segment}
    (hWellFormed : segment.WellFormed) (hSlash : 47 ∉ segment.text)
    (hSame : elemOf segment = elem.stripped) : elem.Plain := by
  have hName : segment.name = stripModule elem.name := congrArg PathElem.name hSame
  have hKeys : (elemOf segment).key = elem.stripped.key := congrArg PathElem.key hSame
  constructor
  · rw [← hName]
    obtain ⟨_, ⟨hNoKey, _, hOpen⟩ | ⟨hSomeKey, _, _, hOpen, _⟩⟩ := hWellFormed
    · rw [Segment.text, if_pos hNoKey] at hSlash
      exact ⟨hSlash, hOpen⟩
    · rw [Segment.text, if_neg hSomeKey] at hSlash
      exact ⟨fun hMem => hSlash (by simp [hMem]), hOpen⟩
  · rw [show elem.key = _ from hKeys.symm, elemOf]
    obtain ⟨_, ⟨hNoKey, _⟩ | ⟨hSomeKey, _, hEquals, _⟩⟩ := hWellFormed
    · rw [if_pos hNoKey]
      exact fun entry hEntry => absurd hEntry List.not_mem_nil
    · rw [if_neg hSomeKey]
      intro entry hEntry
      rw [Segment.text, if_neg hSomeKey] at hSlash
      obtain rfl : entry = (segment.key, segment.value) := List.mem_singleton.mp hEntry
      exact ⟨fun hMem => hSlash (by simp [hMem]), hEquals, fun hMem => hSlash (by simp [hMem])⟩

/-- A router path whose names have no colon is rendered back from its elements. -/
theorem elementsToPath_map_elemOf {path : GoString} {segments : List Segment}
    (hParse : parse path = .ok segments) (hColon : ∀ segment ∈ segments, 58 ∉ segment.name) :
    elementsToPath (segments.map elemOf) = .ok path := by
  have hTexts : (segments.map elemOf).mapM elementText = .ok (segments.map Segment.text) := by
    rw [mapM_eq_ok_iff, List.forall₂_map_left_iff, List.forall₂_map_right_iff,
      List.forall₂_same]
    exact fun segment hMem => elementText_elemOf (wellFormed_of_mem_parse hParse hMem).1
      (hColon segment hMem)
  have hJoined : join (segments.map Segment.text) 47 = path := pathText_of_parse_eq_ok hParse
  rw [elementsToPath, hTexts]
  exact checkJoined_eq_ok_iff.mpr ⟨hJoined.symm, segments, hJoined ▸ hParse⟩

/-- The two conversions are inverse to each other.  The elements of an accepted path come back
with the prefixes of the modules stripped exactly if they are plain, and a router path, the root
included, whose names have no colon comes back as it is. -/
theorem gnmiPath_routerPath_faithful (path : Path) (canonical : GoString) :
    (∀ converted, path.elem ≠ [] → routerPath (some path) = .ok converted →
      ((∃ back, gnmiPath converted = .ok back ∧ back.elem = path.elem.map PathElem.stripped) ↔
        ∀ elem ∈ path.elem, elem.Plain)) ∧
    ∀ segments, baseSegments canonical = .ok segments →
      (∀ segment ∈ segments, 58 ∉ segment.name) →
      ∃ elems, gnmiPath canonical = .ok elems ∧ routerPath (some elems) = .ok canonical := by
  constructor
  · intro converted hElem hAccepted
    have hRendered : elementsToPath path.elem = .ok converted := by
      unfold routerPath at hAccepted
      dsimp only at hAccepted
      split at hAccepted
      · cases hAccepted
      · exact hAccepted
    obtain ⟨_, _, hJoined⟩ := bind_eq_ok_iff.mp hRendered
    obtain ⟨rfl, segments, hParse⟩ := checkJoined_eq_ok_iff.mp hJoined
    have hBack := gnmiPath_of_baseSegments (baseSegments_of_parse_eq_ok hParse)
    constructor
    · rintro ⟨back, hConverted, hSame⟩ elem hMem
      cases hBack.symm.trans hConverted
      have hOne : elem.stripped ∈ path.elem.map PathElem.stripped := List.mem_map_of_mem hMem
      rw [← hSame] at hOne
      obtain ⟨segment, hSegment, hOne⟩ := List.mem_map.mp hOne
      obtain ⟨hWellFormed, hSlash⟩ := wellFormed_of_mem_parse hParse hSegment
      exact plain_of_stripped_eq_elemOf hWellFormed hSlash hOne
    · intro hPlain
      obtain ⟨others, hOthers, hSame⟩ := elems_of_elementsToPath_eq_ok hElem hPlain hRendered
      cases hParse.symm.trans hOthers
      exact ⟨_, hBack, hSame⟩
  · intro segments hBase hColon
    refine ⟨_, gnmiPath_of_baseSegments hBase, ?_⟩
    rcases baseSegments_eq_ok hBase with ⟨rfl, rfl⟩ | ⟨_, hParse⟩
    · rfl
    · have hElems : segments.map elemOf ≠ [] := by
        simpa using ne_nil_of_parse_eq_ok hParse
      have hRendered := elementsToPath_map_elemOf hParse hColon
      simpa [routerPath, originAccepted, hElems] using hRendered

/-- A VLAN, with the prefix of its module. -/
def vlanPath : Path :=
  ⟨[], [⟨"sim-l2-switching:vlans", ∅⟩,
    ⟨"vlan", (∅ : Std.ExtTreeMap GoString GoString).insert "id" "7"⟩], []⟩

theorem gnmiPath_routerPath_vlan :
    routerPath (some vlanPath) = .ok (text "vlans/vlan[id=7]") ∧
      ∃ back, gnmiPath "vlans/vlan[id=7]" = .ok back ∧
        back.elem = vlanPath.elem.map PathElem.stripped := by
  have hAccepted : routerPath (some vlanPath) = .ok (text "vlans/vlan[id=7]") := by
    decide +kernel
  have hPlain : ∀ elem ∈ vlanPath.elem, elem.Plain := by
    intro elem hElem
    simp only [vlanPath, List.mem_cons, List.not_mem_nil, or_false] at hElem
    rcases hElem with rfl | rfl <;> exact ⟨by decide +kernel, by decide +kernel⟩
  exact ⟨hAccepted, ((gnmiPath_routerPath_faithful vlanPath []).1 _ (by simp [vlanPath])
    hAccepted).mpr hPlain⟩

/-- One element with a slash in its name comes back as two elements. -/
theorem gnmiPath_routerPath_splits_name :
    routerPath (some ⟨[], [⟨"system-info/name", ∅⟩], []⟩) = .ok (text "system-info/name") ∧
      (gnmiPath "system-info/name").toOption.map (fun back => back.elem.map PathElem.name) =
        some [text "system-info", text "name"] := by
  decide +kernel

end Gnmi
end TriadSim
