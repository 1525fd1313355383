import TriadSim.Machine
import TriadSim.Router.Hydrate
import TriadSim.Router.Schema

/-!
# Router operations

`internal/router/router.go`: leaves are read and written through the router, which
resolves every path against the boot template, converts values to the type of their
leaf and keeps the management planes away from state leaves.
-/

namespace TriadSim

open Go Library Model Store

/-- `Router`, without the store and the memoized index, which the machine holds. -/
structure Router where
  root : Device
  objects : List Router.IndexedObject

namespace Router

/-- An OID that two objects share.  The objects are sorted by OID, so equal ones are
neighbours. -/
def duplicateOID : List IndexedObject → Option GoString
  | first :: second :: rest =>
    if first.oid = second.oid then some first.oid else duplicateOID (second :: rest)
  | _ => none

/-- `New`. -/
def newRouter (root : Device) : Except Err Router :=
  match duplicateOID (buildObjects root) with
  | some oid => .error (.text ("router: duplicate OID " ++ oid))
  | none => .ok ⟨root, buildObjects root⟩

/-- The router of the default device. -/
def defaultRouter : Router :=
  ⟨defaultDevice, buildObjects defaultDevice⟩

theorem newRouter_defaultDevice : newRouter defaultDevice = .ok defaultRouter := by
  have hDistinct : duplicateOID (buildObjects defaultDevice) = none := by
    decide +kernel
  simp only [newRouter, hDistinct, defaultRouter]

/-- `Result`; the type is absent on a path that SNMP does not expose. -/
structure Result where
  path : GoString
  oid : GoString
  value : Leaf
  type : Option SNMPType
  writable : Bool

/-! ## Single leaves -/

def notLeaf (path : GoString) : Err :=
  .sentinel .routerNotFound ++ .text (": " ++ path ++ " is not a leaf")

/-- The opening of every operation on a leaf: parse the path, resolve it against the
template and make sure that it is a leaf.  The answer is the canonical path, the
kind of the leaf and whether it is read-only. -/
def locate (r : Router) (path : GoString) : Except Err (GoString × LeafKind × Bool) :=
  match parse path with
  | .error err => .error err
  | .ok segments =>
    match resolve Device.fields r.root.toVals segments with
    | .error err => .error err
    | .ok ⟨.leaf kind, readOnly⟩ => .ok (pathText segments, kind, readOnly)
    | .ok _ => .error (notLeaf (pathText segments))

/-- `result`. -/
def result (r : Router) (path : GoString) (value : Leaf) (writable : Bool) : Result :=
  match objectAt r.objects path with
  | some object => ⟨path, object.oid, value, some object.type, writable⟩
  | none => ⟨path, [], value, none, writable⟩

/-- The translation of a protocol value back to the model's type, where the path has
an object that needs one. -/
def decode (r : Router) (path : GoString) (value : GoValue) : Except Err GoValue :=
  match (objectAt r.objects path).bind IndexedObject.decode with
  | none => .ok value
  | some decoder =>
    match decoder.apply value with
    | .ok decoded => .ok decoded
    | .error err =>
      .error (.text (path ++ ": ") ++ .sentinel .routerBadValue ++ .text ": " ++ err.asText)

/-- The coercion of a decoded value; an error names the path. -/
def coerceAt (r : Router) (path : GoString) (kind : LeafKind) (value : GoValue) :
    Except Err Result :=
  match coerce kind value with
  | .error err => .error (.text (path ++ ": ") ++ err)
  | .ok coerced => .ok (r.result path (Leaf.ofVal kind coerced) true)

/-- `convert`: the value a write would store. -/
def convertTo (r : Router) (allowReadOnly : Bool) (path : GoString) (value : GoValue) :
    Except Err Result := do
  let (canonical, kind, readOnly) ← r.locate path
  if readOnly && !allowReadOnly then
    .error (.sentinel .routerReadOnly ++ .text (": " ++ canonical))
  else
    let decoded ← r.decode canonical value
    r.coerceAt canonical kind decoded

/-- `Convert`. -/
def convert (r : Router) (path : GoString) (value : GoValue) : Except Err Result :=
  r.convertTo false path value

/-- `describe`: a stored leaf. -/
def describe (r : Router) (path : GoString) (value : Leaf) : Except Err Result := do
  let (canonical, _, readOnly) ← r.locate path
  .ok (r.result canonical value !readOnly)

/-- `IsState`. -/
def isState (r : Router) (path : GoString) : Bool :=
  match parse path with
  | .error _ => false
  | .ok segments =>
    match resolve Device.fields r.root.toVals segments with
    | .error _ => false
    | .ok found => found.readOnly

/-- `Validate`. -/
def validate (r : Router) (ctx : Option Err) (values : Values) : Except Err Unit :=
  validateValues r.root ctx values

/-- The store as `cli/start.go` sets it up: the router is its validator and its state
filter. -/
def options (r : Router) (startupFile : GoString) : Options :=
  { startupFile, validator := some r.validate, stateFilter := some r.isState }

/-! ### Inversion -/

variable {r : Router} {path : GoString} {kind : LeafKind} {allowReadOnly : Bool} {value : GoValue}
    {converted : Result}

theorem locate_eq_ok {canonical : GoString} {readOnly : Bool}
    (hLocate : r.locate path = .ok (canonical, kind, readOnly)) :
    canonical = path ∧ ∃ segments, parse path = .ok segments ∧
      resolve Device.fields r.root.toVals segments = .ok ⟨.leaf kind, readOnly⟩ := by
  unfold locate at hLocate
  cases hParse : parse path with
  | error err =>
    rw [hParse] at hLocate
    cases hLocate
  | ok segments =>
    rw [hParse] at hLocate
    dsimp only at hLocate
    cases hResolve : resolve Device.fields r.root.toVals segments with
    | error err =>
      rw [hResolve] at hLocate
      cases hLocate
    | ok found =>
      rw [hResolve] at hLocate
      obtain ⟨shape, access⟩ := found
      cases shape with
      | leaf other =>
        cases hLocate
        exact ⟨pathText_of_parse_eq_ok hParse, segments, rfl, hResolve⟩
      | container | list => cases hLocate

theorem isState_of_locate_eq_ok {canonical : GoString} {readOnly : Bool}
    (hLocate : r.locate path = .ok (canonical, kind, readOnly)) :
    r.isState path = readOnly := by
  obtain ⟨_, segments, hParse, hResolve⟩ := locate_eq_ok hLocate
  simp only [isState, hParse, hResolve]

@[simp] theorem result_path (r : Router) (path : GoString) (value : Leaf) (writable : Bool) :
    (r.result path value writable).path = path := by
  unfold result
  split <;> rfl

@[simp] theorem result_value (r : Router) (path : GoString) (value : Leaf) (writable : Bool) :
    (r.result path value writable).value = value := by
  unfold result
  split <;> rfl

@[simp] theorem result_writable (r : Router) (path : GoString) (value : Leaf) (writable : Bool) :
    (r.result path value writable).writable = writable := by
  unfold result
  split <;> rfl

/-- What a successful conversion has checked and what it answers. -/
theorem convertTo_eq_ok (hConvert : r.convertTo allowReadOnly path value = .ok converted) :
    ∃ kind readOnly decoded coerced, r.locate path = .ok (path, kind, readOnly) ∧
      (readOnly = true → allowReadOnly = true) ∧
      r.decode path value = .ok decoded ∧ coerce kind decoded = .ok coerced ∧
      converted = r.result path (Leaf.ofVal kind coerced) true := by
  unfold convertTo at hConvert
  rw [bind_eq_ok_iff] at hConvert
  obtain ⟨⟨canonical, kind, readOnly⟩, hLocate, hRest⟩ := hConvert
  dsimp only at hRest
  obtain ⟨hCanonical, _⟩ := locate_eq_ok hLocate
  subst hCanonical
  split at hRest
  · cases hRest
  · next hAccess =>
    rw [bind_eq_ok_iff] at hRest
    obtain ⟨decoded, hDecode, hRest⟩ := hRest
    unfold coerceAt at hRest
    cases hCoerce : coerce kind decoded with
    | error err =>
      rw [hCoerce] at hRest
      cases hRest
    | ok coerced =>
      rw [hCoerce] at hRest
      cases hRest
      exact ⟨kind, readOnly, decoded, coerced, hLocate, by simpa using hAccess, hDecode,
        hCoerce, rfl⟩

theorem convert_eq_ok (hConvert : r.convert path value = .ok converted) :
    ∃ kind decoded coerced, r.locate path = .ok (path, kind, false) ∧
      r.decode path value = .ok decoded ∧ coerce kind decoded = .ok coerced ∧
      converted = r.result path (Leaf.ofVal kind coerced) true := by
  obtain ⟨kind, readOnly, decoded, coerced, hLocate, hAccess, hRest⟩ := convertTo_eq_ok hConvert
  cases readOnly with
  | true => exact absurd (hAccess rfl) (by decide)
  | false => exact ⟨kind, decoded, coerced, hLocate, hRest⟩

theorem path_of_convertTo_eq_ok (hConvert : r.convertTo allowReadOnly path value = .ok converted) :
    converted.path = path := by
  obtain ⟨kind, readOnly, decoded, coerced, _, _, _, _, rfl⟩ := convertTo_eq_ok hConvert
  exact result_path ..

theorem path_of_convert_eq_ok (hConvert : r.convert path value = .ok converted) :
    converted.path = path :=
  path_of_convertTo_eq_ok hConvert

/-- A management plane never gets past the conversion of a state leaf. -/
theorem isState_of_convert_eq_ok (hConvert : r.convert path value = .ok converted) :
    r.isState path = false := by
  obtain ⟨kind, _, _, hLocate, _⟩ := convert_eq_ok hConvert
  exact isState_of_locate_eq_ok hLocate

/-- A value that has been through the decoder and the coercion stands at the decoder
again: only booleans come out of a decoder, and a boolean is coerced to itself. -/
theorem decode_ofVal_of_coerce_eq_ok {decoded : GoValue} {coerced : kind.Val}
    (hDecode : r.decode path value = .ok decoded) (hCoerce : coerce kind decoded = .ok coerced) :
    r.decode path (.leaf (Leaf.ofVal kind coerced)) = .ok (.leaf (Leaf.ofVal kind coerced)) := by
  unfold decode at hDecode ⊢
  cases hObject : (objectAt r.objects path).bind IndexedObject.decode with
  | none => rfl
  | some decoder =>
    rw [hObject] at hDecode
    dsimp only at hDecode ⊢
    cases hApply : decoder.apply value with
    | error err =>
      rw [hApply] at hDecode
      cases hDecode
    | ok applied =>
      rw [hApply] at hDecode
      cases hDecode
      obtain ⟨truth, rfl⟩ := Decoder.exists_bool_of_apply_eq_ok hApply
      cases kind with
      | bool =>
        cases hCoerce
        rw [show Leaf.ofVal LeafKind.bool truth = .bool truth from rfl,
          Decoder.apply_of_apply_eq_ok hApply]
      | _ => cases hCoerce

/-- Converting a converted value changes nothing: a batch of converted values passes
through the second conversion of `Apply` as it is. -/
theorem convert_of_convert_eq_ok (hConvert : r.convert path value = .ok converted) :
    r.convert path (.leaf converted.value) = .ok converted := by
  obtain ⟨kind, decoded, coerced, hLocate, hDecode, hCoerce, rfl⟩ := convert_eq_ok hConvert
  have hAgain := decode_ofVal_of_coerce_eq_ok hDecode hCoerce
  rw [result_value, convert, convertTo, hLocate]
  show (r.decode path _ >>= r.coerceAt path kind) = _
  rw [hAgain]
  show r.coerceAt path kind (.leaf (Leaf.ofVal kind coerced)) = _
  rw [coerceAt, coerce_ofVal]

/-- The same holds of a value that Go does not find equal to itself. -/
theorem value_of_convert_eq_ok_of_goEq_self {leaf : Leaf} (hSelf : Leaf.goEq leaf leaf = false)
    (hConvert : r.convert path (.leaf leaf) = .ok converted) : converted.value = leaf := by
  obtain ⟨kind, decoded, coerced, _, hDecode, hCoerce, rfl⟩ := convert_eq_ok hConvert
  rw [result_value]
  have hDecoded : decoded = .leaf leaf := by
    unfold decode at hDecode
    split at hDecode
    · cases hDecode
      rfl
    · next decoder _ =>
      cases decoder
      cases leaf with
      | float64 x => cases hDecode
      | _ => simp [Leaf.goEq] at hSelf
  subst hDecoded
  exact ofVal_of_coerce_eq_ok_of_goEq_self hSelf hCoerce

/-- A string only fits a string leaf, which keeps it. -/
theorem value_of_convertTo_string_eq_ok {s : GoString}
    (hConvert : r.convertTo allowReadOnly path (.leaf (.string s)) = .ok converted) :
    converted.value = .string s := by
  obtain ⟨kind, readOnly, decoded, coerced, _, _, hDecode, hCoerce, rfl⟩ :=
    convertTo_eq_ok hConvert
  have hDecoded : decoded = .leaf (.string s) := by
    unfold decode at hDecode
    split at hDecode
    · cases hDecode
      rfl
    · next decoder _ =>
      cases decoder
      simp [Decoder.apply] at hDecode
  subst hDecoded
  rw [result_value]
  cases kind with
  | string =>
    cases hCoerce
    rfl
  | _ => simp [coerce, assignUint, toInt64?, toUint64?, toFloat64?, Except.map] at hCoerce

/-! ## Whole datastores -/

/-- `if err := ctx.Err(); err != nil { return err }`. -/
def checkCtx {α : Type} (next : Prog (Except Err α)) : Prog (Except Err α) :=
  .call .ctxErr fun
    | some err => .ret (.error err)
    | none => next

/-- Go on with the value of a step, or return its error. -/
def andThen {α β : Type} (step : Prog (Except Err α)) (next : α → Prog (Except Err β)) :
    Prog (Except Err β) :=
  step.bind fun
    | .error err => .ret (.error err)
    | .ok value => next value

/-- The rule for `andThen`, whatever the surroundings of the calls are. -/
theorem ensures_andThen {α β Env State : Type}
    {handle : Program.Handler Request Request.Response Env State} {state : State}
    {step : Prog (Except Err α)} {next : α → Prog (Except Err β)}
    {post : Except Err β → State → Prop}
    (hStep : Program.Ensures handle step (fun result after =>
      (∀ value, result = .ok value → Program.Ensures handle (next value) post after) ∧
        ∀ err, result = .error err → post (.error err) after) state) :
    Program.Ensures handle (andThen step next) post state := by
  refine Program.Ensures.bind hStep ?_
  rintro (err | value) after ⟨hOk, hError⟩
  · exact hError err rfl
  · exact hOk value rfl

/-- The descriptions of all leaves of a content. -/
def describeAll (r : Router) (content : Values) :
    Except Err (Std.ExtTreeMap GoString Result) :=
  FinMap.traverse r.describe content

/-- `Values`. -/
def values (r : Router) (ds : Datastore) : Prog (Except Err (Std.ExtTreeMap GoString Result)) :=
  checkCtx <| andThen (ask (.values ds)) fun content => .ret (r.describeAll content)

/-- `flatValues`. -/
def flatValues (ds : Datastore) : Prog (Except Err Values) :=
  checkCtx (ask (.values ds))

/-- `Snapshot`: the device a datastore describes. -/
def snapshot (r : Router) (ds : Datastore) : Prog (Except Err Device) :=
  andThen (flatValues ds) fun values => .ret (deviceFromValues r.root values)

/-- The conversion of a batch.  The converted path is the path itself. -/
def convertAll (r : Router) (batch : Std.ExtTreeMap GoString GoValue) :
    Except Err (Std.ExtTreeMap GoString GoValue) :=
  FinMap.traverse (fun path value => (r.convert path value).map fun converted =>
    .leaf converted.value) batch

/-- `Apply`. -/
def apply (r : Router) (ds : Datastore) (batch : Std.ExtTreeMap GoString GoValue)
    (deletions : List GoString) : Prog (Except Err Unit) :=
  checkCtx <| andThen (.ret (r.convertAll batch)) fun converted =>
    ask (.mutate (.apply ds converted deletions))

/-- `Transaction`. -/
def transaction {α : Type} (body : Prog (Except Err α)) : Prog (Except Err α) :=
  checkCtx (.locked .transaction body)

/-- `Validate` as a program: it looks at the context once. -/
def validateProg (r : Router) (content : Values) : Prog (Except Err Unit) :=
  .call .ctxErr fun ctx => .ret (r.validate ctx content)

/-- `SetState`. -/
def setState (r : Router) (path : GoString) (value : GoValue) : Prog (Except Err Result) :=
  checkCtx <| andThen (.ret (r.convertTo true path value)) fun converted =>
    andThen (ask (.mutate (.set .running converted.path (.leaf converted.value)))) fun () =>
      .ret (.ok converted)

/-- `DeleteState`: an absent leaf is no error. -/
def deleteState (r : Router) (path : GoString) : Prog (Except Err Unit) :=
  checkCtx <| andThen (.ret (r.locate path)) fun located =>
    .call (.mutate (.delete .running located.1)) fun
      | .ok () => .ret (.ok ())
      | .error err => .ret (if err.is .storeNotFound then .ok () else .error err)

/-- `Set`. -/
def set (r : Router) (ds : Datastore) (path : GoString) (value : GoValue) :
    Prog (Except Err Result) :=
  checkCtx <| andThen (.ret (r.convert path value)) fun converted =>
    andThen (ask (.mutate (.set ds converted.path (.leaf converted.value)))) fun () =>
      .ret (.ok converted)

/-- `Delete`. -/
def delete (r : Router) (ds : Datastore) (path : GoString) : Prog (Except Err Unit) :=
  checkCtx <| andThen (.ret (r.locate path)) fun located =>
    .call (.mutate (.delete ds located.1)) fun
      | .ok () => .ret (.ok ())
      | .error err =>
        .ret (.error (if err.is .storeNotFound then
          .sentinel .routerNotFound ++ .text ": " ++ err else err))

/-- `List`: the leaves strictly below a path, in lexicographic order. -/
def list (r : Router) (ds : Datastore) (lead : GoString) : Prog (Except Err (List Result)) :=
  checkCtx <| andThen (ask (.values ds)) fun content =>
    .ret <| (content.toList.filter fun entry =>
      lead = [] || hasPrefix entry.1 (lead ++ [47])).mapM fun entry => r.describe entry.1 entry.2

end Router
end TriadSim
