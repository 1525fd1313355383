import TriadSim.Datatree.Document

/-!
# Request bodies

`internal/restconf/ops/codec_json.go` and `codec_xml.go`: a body is read by the standard library's
decoder and turned into the documents an edit walks.  The two library decoders are not modelled: a
JSON body starts as the value `encoding/json` reads, an XML body as the tokens `encoding/xml`
hands out.  The documents of one body have one name, by `uniform_of_decode_eq_ok`.
-/

namespace TriadSim
namespace Restconf

open Datatree Go Library

/-- `Payload`. -/
structure Payload where
  name : GoString
  documents : List Document
  scalar : GoString
  isScalar : Bool

/-- `stripModule`. -/
def stripModule (name : GoString) : GoString :=
  ((cut name 58).map Prod.snd).getD name

/-- `leafOf`. -/
def leafOf (name text : GoString) : Document :=
  .mk name text [] []

/-! ## JSON -/

/-- A JSON value as it stands in the text: a number keeps its literal, and an object
may name a member twice. -/
inductive JSONValue where
  | null
  | bool (truth : Bool)
  | number (literal : GoString)
  | string (s : GoString)
  | array (items : List JSONValue)
  | object (members : List (GoString × JSONValue))

/-- `scalarText`. -/
def scalarText : JSONValue → GoString
  | .string s => s
  | .number literal => literal
  | .bool truth => if truth then "true" else "false"
  | _ => []

/-- The document of an object, from the documents of its members: the members are
visited in the order of their names. -/
def objectDocument (name : GoString) (members : Std.ExtTreeMap GoString (List Document)) :
    Document :=
  .mk name [] [] (members.toList.flatMap Prod.snd)

mutual

/-- The documents of each member of an object.  The last member of a name counts. -/
def memberDocuments : List (GoString × JSONValue) → Std.ExtTreeMap GoString (List Document)
  | [] => ∅
  | (key, value) :: rest =>
    (memberDocuments rest).insertIfNew key (valueDocuments (stripModule key) value)
termination_by structural members => members

/-- The children a member adds to the document of its object. -/
def valueDocuments (name : GoString) : JSONValue → List Document
  | .object members => [objectDocument name (memberDocuments members)]
  | .array items => entryDocuments name items
  | value => [leafOf name (scalarText value)]
termination_by structural value => value

/-- One child for each entry of a list. -/
def entryDocuments (name : GoString) : List JSONValue → List Document
  | [] => []
  | .object members :: rest =>
    objectDocument name (memberDocuments members) :: entryDocuments name rest
  | entry :: rest => leafOf name (scalarText entry) :: entryDocuments name rest
termination_by structural items => items

end

/-- `documentOfMap`. -/
def documentOfMap (name : GoString) (members : List (GoString × JSONValue)) : Document :=
  objectDocument name (memberDocuments members)

/-- What reading a JSON body comes to. -/
inductive JSONText where
  | empty
  | malformed (reason : GoString)
  /-- A document with something behind it. -/
  | trailing
  | document (value : JSONValue)

/-- The entries of a list body, which all have to be objects. -/
def listEntries (resource : GoString) : List JSONValue → Except Err (List Document)
  | [] => .ok []
  | .object members :: rest =>
    (listEntries resource rest).map (documentOfMap resource members :: ·)
  | _ :: _ => .error (invalidValue
      (.text ("list entries of " ++ resource ++ " must be JSON objects")))

/-- The payload of the single member of a body. -/
def memberPayload (resource : GoString) : JSONValue → Except Err Payload
  | .object members => .ok ⟨resource, [documentOfMap resource members], [], false⟩
  | .array items => (listEntries resource items).map fun documents =>
    ⟨resource, documents, [], false⟩
  | value => .ok ⟨resource, [], scalarText value, true⟩

/-- The members of an object as Go's map holds them. -/
def lastMembers (members : List (GoString × JSONValue)) : Std.ExtTreeMap GoString JSONValue :=
  members.foldl (fun held member => held.insert member.1 member.2) ∅

/-- `decodeJSON`. -/
def decodeJSON : JSONText → Except Err Payload
  | .empty => .error (malformed (.text "the request body is empty"))
  | .malformed reason => .error (malformed (.text ("malformed JSON body: " ++ reason)))
  | .trailing =>
    .error (malformed (.text "the request body must hold exactly one JSON document"))
  | .document (.object members) =>
    match (lastMembers members).toList with
    | [(name, value)] => memberPayload (stripModule name) value
    | _ => .error (invalidValue (.text "the request body must have exactly one member"))
  | .document _ => .error (invalidValue (.text "the request body must be a JSON object"))

/-! ## XML -/

/-- A token of `encoding/xml`, with the local name of an element. -/
inductive XMLToken where
  | startElement (name : GoString)
  | endElement (name : GoString)
  | charData (text : GoString)
  /-- A comment, a processing instruction or a directive. -/
  | other

/-- What reading an XML body comes to: its tokens, and the error that ends them if the
text is malformed. -/
inductive XMLText where
  | empty
  | tokens (tokens : List XMLToken) (failure : Option GoString)

/-- The state of `parseXMLDocument`: the open elements, innermost first, and the
document element once it is closed. -/
structure XMLState where
  stack : List Document
  root : Option Document

/-- The innermost element is complete. -/
def XMLState.close : XMLState → XMLState
  | ⟨top :: .mk name text attrs children :: rest, root⟩ =>
    ⟨.mk name text attrs (children ++ [top]) :: rest, root⟩
  | ⟨[top], _⟩ => ⟨[], some top⟩
  | ⟨[], root⟩ => ⟨[], root⟩

/-- One round of the loop of `parseXMLDocument`. -/
def XMLState.step (state : XMLState) : XMLToken → Except Err XMLState
  | .startElement name =>
    if state.root.isSome && state.stack.isEmpty then
      .error (malformed (.text "the request body must hold exactly one XML document"))
    else .ok { state with stack := .mk name [] [] [] :: state.stack }
  | .endElement name =>
    if state.stack.isEmpty then
      .error (malformed (.text ("unexpected end element " ++ name)))
    else .ok state.close
  | .charData added =>
    match state.stack with
    | .mk name text attrs children :: rest =>
      .ok { state with stack := .mk name (text ++ added) attrs children :: rest }
    | [] => .ok state
  | .other => .ok state

/-- The document element when the text ends: elements still open are part of it. -/
def XMLState.finish : Nat → XMLState → Option Document
  | 0, state => state.root
  | fuel + 1, state =>
    if state.stack.isEmpty then state.root else XMLState.finish fuel state.close

/-- `parseXMLDocument`. -/
def parseXMLDocument : XMLText → Except Err Document
  | .empty => .error (malformed (.text "the request body is empty"))
  | .tokens tokens failure => do
      let state ← tokens.foldlM XMLState.step ⟨[], none⟩
      match failure with
      | some reason => .error (malformed (.text ("malformed XML body: " ++ reason)))
      | none =>
        match XMLState.finish state.stack.length state with
        | none => .error (malformed (.text "the request body holds no XML element"))
        | some root => .ok root

/-- `decodeXML`. -/
def decodeXML (body : XMLText) : Except Err Payload := do
  let document ← parseXMLDocument body
  return ⟨document.name, [document], [], false⟩

/-! ## Both formats -/

/-- A request body in one of the two media types. -/
inductive Body where
  | json (text : JSONText)
  | xml (text : XMLText)

/-- `Decode`. -/
def decode : Body → Except Err Payload
  | .json text => decodeJSON text
  | .xml text => decodeXML text

/-- Every document of a payload carries the payload's name. -/
def Payload.Uniform (payload : Payload) : Prop :=
  ∀ document ∈ payload.documents, document.name = payload.name

theorem name_of_mem_listEntries {resource : GoString} {items : List JSONValue}
    {documents : List Document} (hEntries : listEntries resource items = .ok documents) :
    ∀ document ∈ documents, document.name = resource := by
  induction items generalizing documents with
  | nil =>
    cases hEntries
    simp
  | cons entry rest ih =>
    cases entry with
    | object members =>
      rw [listEntries] at hEntries
      cases hRest : listEntries resource rest with
      | error err =>
        rw [hRest] at hEntries
        cases hEntries
      | ok tail =>
        rw [hRest] at hEntries
        cases hEntries
        rw [List.forall_mem_cons]
        exact ⟨rfl, ih hRest⟩
    | _ => cases hEntries

theorem uniform_of_memberPayload_eq_ok {resource : GoString} {value : JSONValue}
    {payload : Payload} (hPayload : memberPayload resource value = .ok payload) :
    payload.Uniform := by
  cases value with
  | object members =>
    cases hPayload
    intro document hMem
    rw [List.mem_singleton.mp hMem]
    rfl
  | array items =>
    rw [memberPayload] at hPayload
    cases hEntries : listEntries resource items with
    | error err =>
      rw [hEntries] at hPayload
      cases hPayload
    | ok documents =>
      rw [hEntries] at hPayload
      cases hPayload
      exact name_of_mem_listEntries hEntries
  | _ =>
    cases hPayload
    intro document hMem
    cases hMem

/-- Whatever the format, the name of a body is the name of each of its documents. -/
theorem uniform_of_decode_eq_ok {body : Body} {payload : Payload}
    (hDecode : decode body = .ok payload) : payload.Uniform := by
  cases body with
  | json text =>
    cases text with
    | document value =>
      cases value with
      | object members =>
        simp only [decode, decodeJSON] at hDecode
        split at hDecode
        · exact uniform_of_memberPayload_eq_ok hDecode
        · cases hDecode
      | _ => cases hDecode
    | _ => cases hDecode
  | xml text =>
    obtain ⟨document, _, hPayload⟩ := bind_eq_ok_iff.mp hDecode
    cases hPayload
    intro found hMem
    rw [List.mem_singleton.mp hMem]

end Restconf
end TriadSim
