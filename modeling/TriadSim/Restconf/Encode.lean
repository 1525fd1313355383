import TriadSim.Datatree.Run
import TriadSim.Netconf.Render
import TriadSim.Restconf.Target

/-!
# XML bodies of RESTCONF answers

`encodeXML` of `internal/restconf/ops/codec_xml.go`.  The writer keeps the namespace of the
element it has written last and declares a namespace when it is another one.  The
declaration of an element ends with the element, so an element that follows another one of
its own module inside of a third module is left in the namespace of its parent.
`encodeXML_scopes_module_namespaces_iff` says that nothing else goes wrong.
-/

namespace TriadSim
namespace Restconf

open Datatree Go Library Router Store
open scoped List

/-- `restconfNamespace`. -/
def restconfNamespace : GoString := "urn:ietf:params:xml:ns:yang:ietf-restconf"

/-- `writeXMLStart`: the namespace is declared when it changes. -/
def writeXMLStart (name space currentNS : GoString) : Netconf.Tag :=
  .opening name (if space = currentNS then none else some space)

mutual

/-- `writeXMLNode`: the tags it writes, and the namespace of the last element. -/
def writeXMLNode : DataNode → GoString → List Netconf.Tag × GoString
  | .leaf path name _ value, currentNS =>
    (writeXMLStart name (namespaceFor path) currentNS ::
      [.chars (formatLeaf value)] ++ [.closing name], namespaceFor path)
  | .container path name children, currentNS =>
    let (inner, last) := writeXMLNodes children (namespaceFor path)
    (writeXMLStart name (namespaceFor path) currentNS :: inner ++ [.closing name], last)
  | .list _ name _ entries, currentNS => writeXMLEntries name entries currentNS

/-- The loop over the children of a node. -/
def writeXMLNodes : List DataNode → GoString → List Netconf.Tag × GoString
  | [], currentNS => ([], currentNS)
  | node :: rest, currentNS =>
    let (first, between) := writeXMLNode node currentNS
    let (others, last) := writeXMLNodes rest between
    (first ++ others, last)

/-- The loop over the entries of a list, which are containers. -/
def writeXMLEntries (name : GoString) : List ListNode → GoString → List Netconf.Tag × GoString
  | [], currentNS => ([], currentNS)
  | .mk path _ children :: rest, currentNS =>
    let (inner, between) := writeXMLNodes children (namespaceFor path)
    let (others, last) := writeXMLEntries name rest between
    (writeXMLStart name (namespaceFor path) currentNS :: inner ++ [.closing name] ++ others, last)

end

/-- `encodeXML`, as the tags that it writes behind the XML declaration.  The datastore root is
wrapped in a `data` element. -/
def encodeXML (node : DataNode) : List Netconf.Tag :=
  if node.name = [] then
    .opening "data" (some restconfNamespace) ::
      (writeXMLNodes node.children restconfNamespace).1 ++ [.closing "data"]
  else (writeXMLNode node []).1

/-! ## The namespaces in scope -/

/-- The namespace of the last of some elements, or the one before them. -/
def lastSpace (currentNS : GoString) (elements : List Element) : GoString :=
  elements.foldl (fun _ element => element.space) currentNS

/-- No element has the namespace of the element before it unless the node around it has
that namespace too. -/
def Redeclared : GoString → List Element → Prop
  | _, [] => True
  | last, element :: rest =>
    (element.space = last → element.space = element.around) ∧ Redeclared element.space rest

instance decidableRedeclared : (last : GoString) → (elements : List Element) →
    Decidable (Redeclared last elements)
  | _, [] => isTrue trivial
  | last, element :: rest =>
    have := decidableRedeclared element.space rest
    inferInstanceAs (Decidable ((element.space = last → element.space = element.around) ∧ _))

theorem redeclared_append (currentNS : GoString) (first second : List Element) :
    Redeclared currentNS (first ++ second) ↔
      Redeclared currentNS first ∧ Redeclared (lastSpace currentNS first) second := by
  induction first generalizing currentNS with
  | nil => simp [Redeclared, lastSpace]
  | cons element rest ih =>
    rw [List.cons_append, Redeclared, ih, Redeclared, and_assoc]
    rfl

theorem lastSpace_append (currentNS : GoString) (first second : List Element) :
    lastSpace currentNS (first ++ second) = lastSpace (lastSpace currentNS first) second :=
  List.foldl_append

/-- Written tags: the writer goes on with the namespace of the last element.  Inside of the node
they are written for, the elements are all seen in the namespaces of their paths exactly if no
declaration is missing. -/
def Writes (around currentNS : GoString) (written : List Netconf.Tag × GoString)
    (elements : List Element) : Prop :=
  written.2 = lastSpace currentNS elements ∧
    ∀ scope, ∃ seen, XMLTag.Shows scope written.1 seen ∧ seen.length = elements.length ∧
      (scope = around →
        (seen = elements.map Element.qualified ↔ Redeclared currentNS elements))

theorem writes_nil (around currentNS : GoString) : Writes around currentNS ([], currentNS) [] :=
  ⟨rfl, fun _ => ⟨[], XMLTag.shows_nil, rfl, fun _ => by simp [Redeclared]⟩⟩

theorem Writes.append {around currentNS between last : GoString} {first second : List Netconf.Tag}
    {elements more : List Element} (hFirst : Writes around currentNS (first, between) elements)
    (hSecond : Writes around between (second, last) more) :
    Writes around currentNS (first ++ second, last) (elements ++ more) := by
  obtain ⟨hBetween, hFirst⟩ := hFirst
  obtain ⟨hLast, hSecond⟩ := hSecond
  dsimp only at hBetween hLast
  subst hBetween hLast
  refine ⟨(lastSpace_append currentNS elements more).symm, fun scope => ?_⟩
  obtain ⟨seen, hSeen, hLength, hIff⟩ := hFirst scope
  obtain ⟨others, hOthers, hRest, hIffRest⟩ := hSecond scope
  refine ⟨seen ++ others, hSeen.append hOthers, by simp [hLength, hRest], fun hScope => ?_⟩
  rw [redeclared_append, ← hIff hScope, ← hIffRest hScope, List.map_append]
  refine ⟨fun hBoth => List.append_inj hBoth (by simp [hLength]), ?_⟩
  rintro ⟨rfl, rfl⟩
  rfl

/-- An element around written tags.  This is where a declaration can be missing: without
one, the namespace in scope is the one of the parent. -/
theorem writes_element {path name around currentNS last : GoString} {inner : List Netconf.Tag}
    {elements : List Element}
    (hInner : Writes (namespaceFor path) (namespaceFor path) (inner, last) elements) :
    Writes around currentNS
      (writeXMLStart name (namespaceFor path) currentNS :: inner ++ [.closing name], last)
      (⟨name, path, around⟩ :: elements) := by
  obtain ⟨hLast, hInner⟩ := hInner
  refine ⟨hLast, fun scope => ?_⟩
  obtain ⟨seen, hSeen, hLength, hIff⟩ := hInner
    ((if namespaceFor path = currentNS then none else some (namespaceFor path)).getD scope)
  refine ⟨_, hSeen.element name, by simp [hLength], ?_⟩
  rintro rfl
  have hHere : (if namespaceFor path = currentNS then none
      else some (namespaceFor path)).getD scope = namespaceFor path ↔
        (namespaceFor path = currentNS → namespaceFor path = scope) := by
    by_cases hSame : namespaceFor path = currentNS
    · simp [hSame, eq_comm]
    · simp [hSame]
  rw [List.map_cons, List.cons.injEq, Redeclared, Element.qualified, Prod.mk.injEq]
  constructor
  · rintro ⟨⟨_, hScope⟩, hRest⟩
    exact ⟨hHere.mp hScope, (hIff hScope).mp hRest⟩
  · rintro ⟨hScope, hRest⟩
    exact ⟨⟨rfl, hHere.mpr hScope⟩, (hIff (hHere.mpr hScope)).mpr hRest⟩

mutual

theorem writes_writeXMLNode (around currentNS : GoString) :
    (node : DataNode) → Writes around currentNS (writeXMLNode node currentNS)
      (elementsOf around node)
  | .leaf _ _ _ value => writes_element ⟨rfl, fun _ =>
      ⟨[], XMLTag.shows_chars (formatLeaf value), rfl, fun _ => by simp [Redeclared]⟩⟩
  | .container path _ children =>
    writes_element (writes_writeXMLNodes (namespaceFor path) (namespaceFor path) children)
  | .list _ name _ entries => writes_writeXMLEntries around currentNS name entries

theorem writes_writeXMLNodes (around currentNS : GoString) :
    (nodes : List DataNode) → Writes around currentNS (writeXMLNodes nodes currentNS)
      (elementsOfAll around nodes)
  | [] => writes_nil around currentNS
  | node :: rest =>
    (writes_writeXMLNode around currentNS node).append (writes_writeXMLNodes around _ rest)

theorem writes_writeXMLEntries (around currentNS name : GoString) :
    (entries : List ListNode) → Writes around currentNS (writeXMLEntries name entries currentNS)
      (elementsOfEntries around name entries)
  | [] => writes_nil around currentNS
  | .mk path _ children :: rest =>
    (writes_element
      (writes_writeXMLNodes (namespaceFor path) (namespaceFor path) children)).append
      (writes_writeXMLEntries around _ name rest)

end

/-! ## Whole documents -/

/-- The nodes at the top of a document and the namespace around them: the datastore root
stands for its children. -/
def documentNodes (node : DataNode) : List DataNode × GoString :=
  if node.name = [] then (node.children, restconfNamespace) else ([node], [])

/-- The elements of the data in a document. -/
def documentElements (node : DataNode) : List Element :=
  elementsOfAll (documentNodes node).2 (documentNodes node).1

/-- The element that wraps the datastore root. -/
def wrapper (node : DataNode) : List (GoString × GoString) :=
  if node.name = [] then [("data", restconfNamespace)] else []

/-- The namespace in scope at every data element of a document is the one of its path exactly if
no declaration is missing.  NETCONF shows some of the same elements, in the same order, each in
the namespace of its path whatever the document is. -/
theorem encodeXML_scopes_module_namespaces_iff (node : DataNode) :
    (XMLTag.scopes [] [] (encodeXML node) =
        wrapper node ++ (documentElements node).map Element.qualified ↔
      Redeclared (documentNodes node).2 (documentElements node)) ∧
      ∃ shown : List Element,
        shown.map Element.label <+ (documentElements node).map Element.label ∧
        XMLTag.scopes [] [] (Netconf.marshalAll (Netconf.renderNodes (documentNodes node).1 [])) =
          shown.map Element.qualified := by
  constructor
  · unfold encodeXML wrapper
    by_cases hRoot : node.name = []
    · simp only [documentElements, documentNodes, hRoot, if_true]
      obtain ⟨seen, hSeen, _, hIff⟩ :=
        (writes_writeXMLNodes restconfNamespace restconfNamespace node.children).2 restconfNamespace
      have hDocument : XMLTag.Shows ((some restconfNamespace).getD []) _ _ := hSeen
      rw [(hDocument.element (text "data")).scopes_eq [], ← hIff rfl]
      exact List.cons_inj_right _
    · simp only [documentElements, documentNodes, hRoot, if_false, elementsOfAll, List.append_nil]
      obtain ⟨seen, hSeen, _, hIff⟩ := (writes_writeXMLNode [] [] node).2 []
      rw [hSeen.scopes_eq [], ← hIff rfl]
      rfl
  · refine ⟨shownOfAll [] (documentNodes node).1, ?_,
      (Netconf.renders_renderNodes [] _).1.scopes_eq []⟩
    rw [documentElements, labels_elementsOfAll _ []]
    exact (shownOfAll_sublist [] _).map Element.label

/-- The tree of the VLAN with its list, as it is read from a datastore with VLAN 7. -/
def vlanTree : DataNode :=
  .container "vlans" "vlans" [.list "vlans/vlan" "vlan" "id"
    [.mk "vlans/vlan[id=7]" "7" [.leaf "vlans/vlan[id=7]/id" "id" .uint16 (.uint16 7)]]]

example : Redeclared (documentNodes vlanTree).2 (documentElements vlanTree) := by
  decide +kernel

/-- What a root read answers. -/
def rootTree (content : Values) : Option DataNode :=
  ((defaultRouter.describeAll content).toOption.bind fun values =>
    (readNode values [] .all).toOption).join

/-- The whole datastore as XML: `interfaces` follows `system-info`, both of the device
module, so it declares nothing and is in the namespace of the `data` element. -/
theorem encodeXML_root_leaves_interfaces_undeclared :
    ∃ node, rootTree namedContent = some node ∧
      (text "interfaces", restconfNamespace) ∈ XMLTag.scopes [] [] (encodeXML node) ∧
      XMLTag.scopes [] [] (encodeXML node) ≠
        wrapper node ++ (documentElements node).map Element.qualified := by
  have hTree : (rootTree namedContent).any (fun node =>
      (text "interfaces", restconfNamespace) ∈ XMLTag.scopes [] [] (encodeXML node) ∧
      XMLTag.scopes [] [] (encodeXML node) ≠
        wrapper node ++ (documentElements node).map Element.qualified) = true := by
    decide +kernel
  obtain ⟨node, hNode, hScopes⟩ := (Option.any_eq_true _ _).mp hTree
  exact ⟨node, hNode, of_decide_eq_true hScopes⟩

end Restconf
end TriadSim
