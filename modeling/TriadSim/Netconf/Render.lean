import TriadSim.Datatree.Read
import TriadSim.Library.Xml
import TriadSim.Router.Modules

/-!
# The data of a NETCONF reply

`renderNodes` of `internal/netconf/ops/getconfig.go` turns a read tree into XML elements, and
`MarshalXML` of `xmltree.go` writes them out.  An element declares the namespace of its module
when its parent is in another one, so that the namespace in scope at every element is the one of
its node.  The main result is `renders_renderNodes`.
-/

namespace TriadSim

namespace Datatree

open Go Router
open scoped List

/-- `FormatLeaf`. -/
def formatLeaf : Leaf → GoString
  | .bool value => formatBool value
  | .int value => formatInt value.toInt
  | .uint8 value => formatNat value.toNat
  | .uint16 value => formatNat value.toNat
  | .uint32 value => formatNat value.toNat
  | .uint64 value => formatNat value.toNat
  | .float64 value => formatFloat value
  | .string value => value

/-- A node of a read tree that stands for an XML element, with the namespace of the node
around it.  A list is no element, its entries are. -/
structure Element where
  name : GoString
  path : GoString
  around : GoString
  deriving DecidableEq, Repr

/-- The namespace the module of the element's path gives. -/
def Element.space (element : Element) : GoString :=
  namespaceFor element.path

/-- The element as it should be seen: its name and the namespace of its path. -/
def Element.qualified (element : Element) : GoString × GoString :=
  (element.name, element.space)

/-- The element without its surroundings. -/
def Element.label (element : Element) : GoString × GoString :=
  (element.name, element.path)

mutual

/-- The elements of a node in document order. -/
def elementsOf (around : GoString) : DataNode → List Element
  | .leaf path name _ _ => [⟨name, path, around⟩]
  | .container path name children =>
    ⟨name, path, around⟩ :: elementsOfAll (namespaceFor path) children
  | .list _ name _ entries => elementsOfEntries around name entries

/-- The elements of a list of nodes. -/
def elementsOfAll (around : GoString) : List DataNode → List Element
  | [] => []
  | node :: rest => elementsOf around node ++ elementsOfAll around rest

/-- The elements of the entries of a list. -/
def elementsOfEntries (around name : GoString) : List ListNode → List Element
  | [] => []
  | .mk path _ children :: rest =>
    ⟨name, path, around⟩ :: elementsOfAll (namespaceFor path) children ++
      elementsOfEntries around name rest

end

theorem labels_elementsOfEntries (around other name : GoString) (entries : List ListNode) :
    (elementsOfEntries around name entries).map Element.label =
      (elementsOfEntries other name entries).map Element.label := by
  induction entries with
  | nil => rfl
  | cons entry rest ih =>
    obtain ⟨path, keyValue, children⟩ := entry
    simp only [elementsOfEntries, List.cons_append, List.map_cons, List.map_append, ih]
    rfl

theorem labels_elementsOfAll (around other : GoString) (nodes : List DataNode) :
    (elementsOfAll around nodes).map Element.label =
      (elementsOfAll other nodes).map Element.label := by
  induction nodes with
  | nil => rfl
  | cons node rest ih =>
    simp only [elementsOfAll, List.map_append, ih]
    congr 1
    cases node with
    | leaf path name kind value | container path name children => rfl
    | list path name key entries => exact labels_elementsOfEntries around other name entries

/-- A container or an entry is shown when something inside of it is. -/
def shownWith (element : Element) (inner : List Element) : List Element :=
  if inner = [] then [] else element :: inner

mutual

/-- The elements of a node without containers and entries that hold no leaf. -/
def shownOf (around : GoString) : DataNode → List Element
  | .leaf path name _ _ => [⟨name, path, around⟩]
  | .container path name children =>
    shownWith ⟨name, path, around⟩ (shownOfAll (namespaceFor path) children)
  | .list _ name _ entries => shownOfEntries around name entries

def shownOfAll (around : GoString) : List DataNode → List Element
  | [] => []
  | node :: rest => shownOf around node ++ shownOfAll around rest

def shownOfEntries (around name : GoString) : List ListNode → List Element
  | [] => []
  | .mk path _ children :: rest =>
    shownWith ⟨name, path, around⟩ (shownOfAll (namespaceFor path) children) ++
      shownOfEntries around name rest

end

theorem shownWith_sublist {element : Element} {inner all : List Element} (hInner : inner <+ all) :
    shownWith element inner <+ element :: all := by
  unfold shownWith
  split
  · exact List.nil_sublist _
  · exact hInner.cons_cons element

mutual

theorem shownOf_sublist (around : GoString) :
    (node : DataNode) → shownOf around node <+ elementsOf around node
  | .leaf _ _ _ _ => List.Sublist.refl _
  | .container path _ children =>
    shownWith_sublist (shownOfAll_sublist (namespaceFor path) children)
  | .list _ name _ entries => shownOfEntries_sublist around name entries

/-- Nothing is shown that is not an element of the tree, and the order is kept. -/
theorem shownOfAll_sublist (around : GoString) :
    (nodes : List DataNode) → shownOfAll around nodes <+ elementsOfAll around nodes
  | [] => List.Sublist.refl _
  | node :: rest => (shownOf_sublist around node).append (shownOfAll_sublist around rest)

theorem shownOfEntries_sublist (around name : GoString) :
    (entries : List ListNode) →
      shownOfEntries around name entries <+ elementsOfEntries around name entries
  | [] => List.Sublist.refl _
  | .mk path _ children :: rest =>
    (shownWith_sublist (shownOfAll_sublist (namespaceFor path) children)).append
      (shownOfEntries_sublist around name rest)

end

end Datatree

namespace Netconf

open Datatree Go Library Router

/-- `Element`, without the attributes, which a rendered node has none of. -/
inductive XMLElement where
  | mk (space name text : GoString) (children : List XMLElement)

/-- `elementFor`: the namespace an element declares, which is empty when the parent is
already in it.  The namespace for its children is the one of its path either way. -/
def declaredSpace (path currentNS : GoString) : GoString :=
  if namespaceFor path = currentNS then [] else namespaceFor path

/-- An element around what has been rendered for its children, unless that is nothing. -/
def wrap (path name currentNS : GoString) (inner : List XMLElement) : List XMLElement :=
  match inner with
  | [] => []
  | _ => [.mk (declaredSpace path currentNS) name [] inner]

mutual

/-- One round of the loop of `renderNodes`. -/
def renderNode : DataNode → GoString → List XMLElement
  | .leaf path name _ value, currentNS =>
    [.mk (declaredSpace path currentNS) name (formatLeaf value) []]
  | .container path name children, currentNS =>
    wrap path name currentNS (renderNodes children (namespaceFor path))
  | .list _ name _ entries, currentNS => renderEntries name entries currentNS

/-- `renderNodes`: the elements it appends; whether it appended anything is whether there
are any. -/
def renderNodes : List DataNode → GoString → List XMLElement
  | [], _ => []
  | node :: rest, currentNS => renderNode node currentNS ++ renderNodes rest currentNS

/-- The inner loop of `renderNodes`, over the entries of a list. -/
def renderEntries (name : GoString) : List ListNode → GoString → List XMLElement
  | [], _ => []
  | .mk path _ children :: rest, currentNS =>
    wrap path name currentNS (renderNodes children (namespaceFor path)) ++
      renderEntries name rest currentNS

end

abbrev Tag := XMLTag GoString GoString GoString

mutual

/-- `MarshalXML`, as a stream of tags.  The encoder declares the namespace of an element
that has one. -/
def marshalXML : XMLElement → List Tag
  | .mk space name text children =>
    .opening name (if space = [] then none else some space) ::
      ((if text = [] then [] else [.chars text]) ++ marshalAll children) ++ [.closing name]

def marshalAll : List XMLElement → List Tag
  | [] => []
  | element :: rest => marshalXML element ++ marshalAll rest

end

theorem marshalAll_append (first second : List XMLElement) :
    marshalAll (first ++ second) = marshalAll first ++ marshalAll second := by
  induction first with
  | nil => rfl
  | cons element rest ih =>
    simp only [List.cons_append, marshalAll, ih, List.append_assoc]

/-! ## The namespaces in scope -/

/-- The namespace of a path is in scope at an element that is written for it inside of the
namespace `currentNS`. -/
theorem getD_declaredSpace (path currentNS : GoString) :
    (if declaredSpace path currentNS = [] then none
      else some (declaredSpace path currentNS)).getD currentNS = namespaceFor path := by
  unfold declaredSpace
  split
  · rename_i hSame
    simp [hSame]
  · simp [namespaceFor_ne_nil]

/-- Rendered elements show exactly the elements that are to be shown, each in the
namespace of its path. -/
def Renders (currentNS : GoString) (rendered : List XMLElement) (shown : List Element) : Prop :=
  XMLTag.Shows currentNS (marshalAll rendered) (shown.map Element.qualified) ∧
    (rendered = [] ↔ shown = [])

theorem Renders.append {currentNS : GoString} {first second : List XMLElement}
    {shown more : List Element} (hFirst : Renders currentNS first shown)
    (hSecond : Renders currentNS second more) :
    Renders currentNS (first ++ second) (shown ++ more) := by
  constructor
  · rw [marshalAll_append, List.map_append]
    exact hFirst.1.append hSecond.1
  · rw [List.append_eq_nil_iff, List.append_eq_nil_iff, hFirst.2, hSecond.2]

theorem renders_leaf (path name value currentNS : GoString) :
    Renders currentNS [.mk (declaredSpace path currentNS) name value []]
      [⟨name, path, currentNS⟩] := by
  refine ⟨?_, by simp⟩
  have hInner : XMLTag.Shows (namespaceFor path)
      (if value = [] then ([] : List Tag) else [.chars value]) [] := by
    split
    · exact XMLTag.shows_nil
    · exact XMLTag.shows_chars value
  rw [← getD_declaredSpace path currentNS] at hInner
  have hElement := hInner.element name
  rw [getD_declaredSpace] at hElement
  simpa only [marshalAll, marshalXML, List.append_nil, List.map_cons, List.map_nil,
    Element.qualified, Element.space] using hElement

theorem renders_wrap {path name currentNS : GoString} {inner : List XMLElement}
    {shown : List Element} (hInner : Renders (namespaceFor path) inner shown) :
    Renders currentNS (wrap path name currentNS inner)
      (shownWith ⟨name, path, currentNS⟩ shown) := by
  obtain ⟨hShows, hEmpty⟩ := hInner
  cases inner with
  | nil =>
    have hNone : shown = [] := hEmpty.mp rfl
    subst hNone
    exact ⟨XMLTag.shows_nil, by simp [wrap, shownWith]⟩
  | cons element rest =>
    have hSome : shown ≠ [] := fun hNone => by cases hEmpty.mpr hNone
    simp only [wrap, shownWith, hSome, if_false]
    refine ⟨?_, by simp⟩
    rw [← getD_declaredSpace path currentNS] at hShows
    have hElement := hShows.element name
    rw [getD_declaredSpace] at hElement
    simpa only [marshalAll, marshalXML, if_true, List.nil_append, List.append_nil,
      List.map_cons, Element.qualified, Element.space] using hElement

mutual

theorem renders_renderNode (currentNS : GoString) :
    (node : DataNode) → Renders currentNS (renderNode node currentNS) (shownOf currentNS node)
  | .leaf path name _ value => renders_leaf path name (formatLeaf value) currentNS
  | .container path _ children => renders_wrap (renders_renderNodes (namespaceFor path) children)
  | .list _ name _ entries => renders_renderEntries currentNS name entries

/-- `renderNodes` shows every node that holds a leaf, in the namespace of its path. -/
theorem renders_renderNodes (currentNS : GoString) :
    (nodes : List DataNode) →
      Renders currentNS (renderNodes nodes currentNS) (shownOfAll currentNS nodes)
  | [] => ⟨XMLTag.shows_nil, by simp [renderNodes, shownOfAll]⟩
  | node :: rest =>
    (renders_renderNode currentNS node).append (renders_renderNodes currentNS rest)

theorem renders_renderEntries (currentNS name : GoString) :
    (entries : List ListNode) →
      Renders currentNS (renderEntries name entries currentNS)
        (shownOfEntries currentNS name entries)
  | [] => ⟨XMLTag.shows_nil, by simp [renderEntries, shownOfEntries]⟩
  | .mk path _ children :: rest =>
    (renders_wrap (renders_renderNodes (namespaceFor path) children)).append
      (renders_renderEntries currentNS name rest)

end

end Netconf
end TriadSim
