import TriadSim.Errors
import TriadSim.Library.FinMap

/-!
# The startup document

`internal/store/persist.go`: the startup datastore is written as a versioned
document whose leaves carry their kind next to their value.  Package
`encoding/json` is a parameter of the model; what a theorem needs of it is stated
as a hypothesis.
-/

namespace TriadSim
namespace Store

open Go Library

/-- A datastore's content: a flat map from router path to leaf value. -/
abbrev Values := Std.ExtTreeMap GoString Leaf

/-- One path's value on disk. -/
structure DiskLeaf (Raw : Type) where
  kind : GoString
  value : Raw

/-- The startup document. -/
structure DiskFile (Raw : Type) where
  version : Int
  values : Std.ExtTreeMap GoString (DiskLeaf Raw)

/-- `fileVersion`. -/
def fileVersion : Int :=
  1

/-- The functions of `encoding/json` that the store calls: a leaf to and from its
raw message, and a document to and from the bytes of a file. -/
structure Json where
  Raw : Type
  Data : Type
  marshal : Leaf → Except Err Raw
  unmarshal : (kind : LeafKind) → Raw → Except Err kind.Val
  marshalIndent : DiskFile Raw → Except Err Data
  unmarshalFile : Data → Except Err (DiskFile Raw)

/-- `encoding/json` reads back what it has written. -/
structure Json.RoundTrips (json : Json) : Prop where
  leaf : ∀ kind (value : kind.Val) raw,
    json.marshal (Leaf.ofVal kind value) = .ok raw → json.unmarshal kind raw = .ok value
  file : ∀ doc data, json.marshalIndent doc = .ok data → json.unmarshalFile data = .ok doc

/-- Marshal a leaf as itself; like `encoding/json`, refuse NaN and the infinities. -/
def marshalPlain : Leaf → Except Err Leaf
  | .float64 x =>
    if x.finite then .ok (.float64 x) else .error (.text "json: unsupported value")
  | leaf => .ok leaf

theorem marshalPlain_eq_ok {leaf raw : Leaf} (hMarshal : marshalPlain leaf = .ok raw) :
    raw = leaf := by
  unfold marshalPlain at hMarshal
  split at hMarshal
  · split at hMarshal
    · cases hMarshal
      rfl
    · cases hMarshal
  · cases hMarshal
    rfl

/-- The simplest codec that round-trips: a raw message is the leaf itself, and a
file the document. -/
def Json.plain : Json where
  Raw := Leaf
  Data := DiskFile Leaf
  marshal := marshalPlain
  unmarshal kind raw :=
    match Leaf.toVal? kind raw with
    | some value => .ok value
    | none => .error (.text "json: cannot unmarshal")
  marshalIndent := .ok
  unmarshalFile := .ok

theorem Json.plain_roundTrips : Json.plain.RoundTrips where
  leaf := by
    intro kind value raw hMarshal
    rw [marshalPlain_eq_ok hMarshal]
    simp [Json.plain]
  file := by
    intro doc data hMarshal
    cases hMarshal
    rfl

/-- The kind a name in the document stands for. -/
def kindOfName (name : GoString) : Option LeafKind :=
  [LeafKind.bool, .int, .uint8, .uint16, .uint32, .uint64, .float64, .string].find?
    fun kind => kind.name = name

@[simp] theorem kindOfName_name (kind : LeafKind) : kindOfName kind.name = some kind := by
  cases kind <;> decide

/-- `decodeLeaf`. -/
def decodeLeaf (json : Json) (leaf : DiskLeaf json.Raw) : Except Err Leaf :=
  match kindOfName leaf.kind with
  | some kind => (json.unmarshal kind leaf.value).map (Leaf.ofVal kind)
  | none =>
    .error (.sentinel .storeInvalidValue ++ .text ": kind " ++ .piece (.quoted leaf.kind))

/-- The loop body of `Save`: the entry of one path.  The values of a datastore
have supported types, so only the codec can fail. -/
def encodeLeaf (json : Json) (path : GoString) (value : Leaf) :
    Except Err (DiskLeaf json.Raw) :=
  match json.marshal value with
  | .ok raw => .ok ⟨value.kind.name, raw⟩
  | .error err => .error (.text ("store: save " ++ path ++ ": ") ++ err)

/-- The document `Save` writes to `file`. -/
def encodeFile (json : Json) (file : GoString) (values : Values) : Except Err json.Data := do
  let leaves ← FinMap.traverse (encodeLeaf json) values
  match json.marshalIndent ⟨fileVersion, leaves⟩ with
  | .ok data => .ok data
  | .error err => .error (.text ("store: save " ++ file ++ ": ") ++ err)

/-- The loop body of `Load`. -/
def loadLeaf (json : Json) (file path : GoString) (leaf : DiskLeaf json.Raw) :
    Except Err Leaf :=
  match decodeLeaf json leaf with
  | .ok value => .ok value
  | .error err => .error (.text ("store: load " ++ file ++ ": " ++ path ++ ": ") ++ err)

/-- What `Load` makes of the bytes of `file`. -/
def decodeFile (json : Json) (file : GoString) (data : json.Data) : Except Err Values :=
  match json.unmarshalFile data with
  | .error err => .error (.text ("store: load " ++ file ++ ": ") ++ err)
  | .ok doc =>
    if doc.version ≠ fileVersion then
      .error (.text ("store: load " ++ file ++ ": unsupported version ") ++
        .piece (.decimal doc.version))
    else FinMap.traverse (loadLeaf json file) doc.values

/-- A leaf that was written is read back. -/
theorem loadLeaf_of_encodeLeaf_eq_ok {json : Json} (hJson : json.RoundTrips)
    {path : GoString} {value : Leaf} {leaf : DiskLeaf json.Raw}
    (hEncode : encodeLeaf json path value = .ok leaf) (file otherPath : GoString) :
    loadLeaf json file otherPath leaf = .ok value := by
  unfold encodeLeaf at hEncode
  cases hMarshal : json.marshal value with
  | error err =>
    rw [hMarshal] at hEncode
    cases hEncode
  | ok raw =>
    rw [hMarshal] at hEncode
    cases hEncode
    obtain ⟨typed, hTyped⟩ := value.exists_ofVal_eq
    have hRead : json.unmarshal value.kind raw = .ok typed :=
      hJson.leaf value.kind typed raw (by rw [hTyped]; exact hMarshal)
    simp only [loadLeaf, decodeLeaf, kindOfName_name, hRead, Except.map, hTyped]

/-- What a successful encoding consists of. -/
theorem encodeFile_eq_ok {json : Json} {file : GoString} {values : Values} {data : json.Data}
    (hEncode : encodeFile json file values = .ok data) :
    ∃ leaves, FinMap.traverse (encodeLeaf json) values = .ok leaves ∧
      json.marshalIndent ⟨fileVersion, leaves⟩ = .ok data := by
  unfold encodeFile at hEncode
  cases hLeaves : FinMap.traverse (encodeLeaf json) values with
  | error err =>
    rw [hLeaves] at hEncode
    cases hEncode
  | ok leaves =>
    simp only [hLeaves, bind, Except.bind] at hEncode
    refine ⟨leaves, rfl, ?_⟩
    cases hData : json.marshalIndent ⟨fileVersion, leaves⟩ with
    | error err =>
      rw [hData] at hEncode
      cases hEncode
    | ok written =>
      rw [hData] at hEncode
      exact hEncode

/-- A saved document loads as the values it was made of. -/
theorem decodeFile_of_encodeFile_eq_ok {json : Json} (hJson : json.RoundTrips)
    {file : GoString} {values : Values} {data : json.Data}
    (hEncode : encodeFile json file values = .ok data) (otherFile : GoString) :
    decodeFile json otherFile data = .ok values := by
  obtain ⟨leaves, hLeaves, hMarshal⟩ := encodeFile_eq_ok hEncode
  -- Every stored leaf is the encoding of a value, so the second traversal succeeds.
  have hLoad : ∀ path leaf, leaves[path]? = some leaf →
      ∃ value, values[path]? = some value ∧ loadLeaf json otherFile path leaf = .ok value := by
    intro path leaf hLeaf
    obtain ⟨hSome, hNone⟩ := FinMap.traverse_eq_ok_image hLeaves path
    cases hValue : values[path]? with
    | none =>
      rw [hNone hValue] at hLeaf
      cases hLeaf
    | some value =>
      obtain ⟨stored, hStored, hAt⟩ := hSome value hValue
      rw [hAt, Option.some.injEq] at hLeaf
      subst hLeaf
      exact ⟨value, rfl, loadLeaf_of_encodeLeaf_eq_ok hJson hStored otherFile path⟩
  obtain ⟨result, hResult⟩ := FinMap.exists_traverse_eq_ok (loadLeaf json otherFile) leaves
    fun path leaf hLeaf => (hLoad path leaf hLeaf).imp fun _ hBoth => hBoth.2
  have hSame : result = values := by
    refine Std.ExtTreeMap.ext_getElem? fun path => ?_
    obtain ⟨hSome, hNone⟩ := FinMap.traverse_eq_ok_image hResult path
    cases hLeaf : leaves[path]? with
    | none =>
      obtain ⟨hEncoded, _⟩ := FinMap.traverse_eq_ok_image hLeaves path
      rw [hNone hLeaf]
      cases hValue : values[path]? with
      | none => rfl
      | some value =>
        obtain ⟨stored, _, hAt⟩ := hEncoded value hValue
        rw [hLeaf] at hAt
        cases hAt
    | some leaf =>
      obtain ⟨value, hValue, hRead⟩ := hLoad path leaf hLeaf
      obtain ⟨image, hImage, hAt⟩ := hSome leaf hLeaf
      rw [hRead, Except.ok.injEq] at hImage
      rw [hAt, hValue, hImage]
  simp only [decodeFile, hJson.file _ _ hMarshal, ne_eq, not_true_eq_false, if_false, hResult,
    hSame]

end Store
end TriadSim
